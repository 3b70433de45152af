import ImportChart.FileSystem

/-!
# Reading back what was written

A write puts a file at one place. The directories on the way to it stay what they are, for none of
them is at that place: a write never takes the place of a directory. So the path that led to the
place before the write leads there after it (`FileSystem.walk_put`), and what was written is read,
unless the file is protected from it (`FileSystem.read_put`).
-/

namespace ImportChart

namespace FileSystem

variable {system after : FileSystem} {place start parent current next : Place}
  {content : List UInt8}

/-! ## Walks -/

theorem expectDirectory_eq_ok_iff :
    system.expectDirectory place = .ok () ↔ system.get? place = some .directory := by
  rw [expectDirectory]
  split
  · next h => exact iff_of_true rfl h
  · next h => exact iff_of_false (fun heq => nomatch heq) fun heq => nomatch h.symm.trans heq
  · next h => exact iff_of_false (fun heq => nomatch heq) fun heq => nomatch h.symm.trans heq

/-- A name leads on from a directory: nowhere if it is a dot, out of it if it is two, and else to
what lies there. -/
theorem follow_eq_ok_iff {name : String} : system.follow current name = .ok next ↔
    system.get? current = some .directory ∧
      ((name = "." ∧ next = current) ∨ (name = ".." ∧ next = current.dropLast) ∨
        (name ≠ "." ∧ name ≠ ".." ∧ isLongName name = false ∧
          (system.get? (current ++ [name])).isSome = true ∧
          next = current ++ [name])) := by
  rw [← expectDirectory_eq_ok_iff, follow]
  cases system.expectDirectory current with
  | error cause => exact iff_of_false (fun heq => nomatch heq) fun h => nomatch h.1
  | ok _ =>
    dsimp only
    by_cases hdot : name = "."
    · subst hdot
      rw [if_pos rfl, Except.ok.injEq]
      simp only [String.reduceEq, ne_eq, not_true, false_and, or_false, true_and]
      exact eq_comm
    · by_cases hdots : name = ".."
      · subst hdots
        rw [if_neg hdot, if_pos rfl, Except.ok.injEq]
        simp only [String.reduceEq, ne_eq, not_true, false_and, and_false, or_false, false_or,
          true_and]
        exact eq_comm
      · rw [if_neg hdot, if_neg hdots]
        simp only [hdot, hdots, ne_eq, not_false_eq_true, false_and, false_or, true_and]
        cases isLongName name with
        | true => simp
        | false =>
          cases system.get? (current ++ [name]) with
          | none => simp
          | some entry =>
            simp only [Option.isNone_some, Bool.false_eq_true, if_false, Except.ok.injEq,
              Option.isSome_some, true_and]
            exact eq_comm

/-- A walk along some names and then others is two walks. -/
theorem walk_append {names more : List String} (h : system.walk start names = .ok parent) :
    system.walk start (names ++ more) = system.walk parent more := by
  induction names generalizing start with
  | nil =>
    cases h
    rfl
  | cons name rest ih =>
    rw [walk] at h
    rw [List.cons_append, walk]
    cases hfollow : system.follow start name with
    | error cause =>
      rw [hfollow] at h
      cases h
    | ok next =>
      rw [hfollow] at h
      exact ih h

section Put

variable (hplace : place ≠ []) (hfree : system.get? place ≠ some .directory)
include hplace hfree

/-- A directory is not at a place that holds none, so putting a file there leaves it. -/
theorem get?_put_of_directory (h : system.get? current = some .directory) :
    (system.put place (.file content)).get? current = some .directory := by
  have hne : place ≠ current := fun heq => hfree (heq ▸ h)
  rw [get?_put system place current _ hplace, if_neg hne, h]

/-- A step that was possible still is after a file has been put where there is no directory. -/
theorem follow_put {name : String} (h : system.follow current name = .ok next) :
    (system.put place (.file content)).follow current name = .ok next := by
  obtain ⟨hdirectory, hname⟩ := follow_eq_ok_iff.mp h
  refine follow_eq_ok_iff.mpr ⟨get?_put_of_directory hplace hfree hdirectory, ?_⟩
  refine hname.imp_right (Or.imp_right fun ⟨hdot, hdots, hlong, hentry, hnext⟩ =>
    ⟨hdot, hdots, hlong, ?_, hnext⟩)
  rw [get?_put system place _ _ hplace]
  split
  · rfl
  · exact hentry

theorem walk_put {names : List String} (h : system.walk start names = .ok parent) :
    (system.put place (.file content)).walk start names = .ok parent := by
  induction names generalizing start with
  | nil => exact h
  | cons name rest ih =>
    rw [walk] at h ⊢
    cases hfollow : system.follow start name with
    | error cause =>
      rw [hfollow] at h
      cases h
    | ok next =>
      rw [hfollow] at h
      rw [follow_put hplace hfree hfollow]
      exact ih h

end Put

/-! ## Writes -/

/-- What follows a check that fails with an error succeeds where the check does not fail. -/
theorem ite_error_eq_ok_iff {p : Prop} [Decidable p] {cause : FileError} {next : Except FileError α}
    {a : α} : (if p then .error cause else next) = .ok a ↔ ¬ p ∧ next = .ok a := by
  split
  · next hp => exact iff_of_false (fun heq => nomatch heq) fun h => h.1 hp
  · next hp => exact (and_iff_right hp).symm

/-- Where a path puts a file: a name, neither dots nor long, in the directory that the names before
it lead to, at a place that is no directory. -/
theorem destination_eq_ok {path : String} (h : system.destination path = .ok place) :
    checkPath path = .ok () ∧ endsWith "/" path = false ∧ ∃ names name parent,
      Path.namedSegments path = names ++ [name] ∧
      system.walk (system.startOf path) names = .ok parent ∧
      system.get? parent = some .directory ∧ name ≠ "." ∧ name ≠ ".." ∧ isLongName name = false ∧
      place = parent ++ [name] ∧ system.get? place ≠ some .directory := by
  rw [destination] at h
  split at h
  · cases h
  · next hcheck =>
    dsimp only at h
    split at h
    · cases h
    · next name hlast =>
      obtain ⟨names, hnames⟩ := List.getLast?_eq_some_iff.mp hlast
      rw [hnames, List.dropLast_concat] at h
      split at h
      · cases h
      · next parent hwalk =>
        split at h
        · cases h
        · next hdirectory =>
          simp only [ite_error_eq_ok_iff] at h
          obtain ⟨hname, hlong, hfree, -, hplace⟩ := h
          rw [not_or, not_or] at hname
          cases hplace
          exact ⟨hcheck, Bool.eq_false_iff.mpr hname.2.2, names, name, parent, hnames, hwalk,
            expectDirectory_eq_ok_iff.mp hdirectory, hname.1, hname.2.1,
            Bool.eq_false_iff.mpr hlong, rfl, hfree⟩

theorem destination_ne_nil {path : String} (h : system.destination path = .ok place) :
    place ≠ [] := by
  obtain ⟨-, -, _, name, parent, -, -, -, -, -, -, rfl, -⟩ := destination_eq_ok h
  exact List.append_ne_nil_of_right_ne_nil parent (List.cons_ne_nil name [])

/-- What was written at a path is read there, unless the file may not be read. -/
theorem read_put {path : String} (hplace : system.destination path = .ok place)
    (hreadable : place ∉ system.unreadable) :
    (system.put place (.file content)).read path = .ok content := by
  obtain ⟨hcheck, hslash, names, name, parent, hnames, hwalk, hdirectory, hdot, hdots,
      hlong, rfl, hfree⟩ :=
    destination_eq_ok hplace
  have hne : parent ++ [name] ≠ [] := destination_ne_nil hplace
  have hfile : (system.put (parent ++ [name]) (.file content)).get? (parent ++ [name]) =
      some (.file content) := by
    rw [get?_put system _ _ _ hne, if_pos rfl]
  have hfollow : (system.put (parent ++ [name]) (.file content)).follow parent name =
      .ok (parent ++ [name]) :=
    follow_eq_ok_iff.mpr ⟨get?_put_of_directory hne hfree hdirectory,
      .inr (.inr ⟨hdot, hdots, hlong, by rw [hfile]; rfl, rfl⟩)⟩
  have hlocate :
      (system.put (parent ++ [name]) (.file content)).locate path = .ok (parent ++ [name]) := by
    have hstart :
        (system.put (parent ++ [name]) (.file content)).startOf path = system.startOf path := rfl
    rw [locate, hcheck, hstart, hnames, walk_append (walk_put hne hfree hwalk), walk, hfollow]
    simp [walk, hslash]
  rw [read, hlocate]
  dsimp only
  rw [readAt, hfile]
  exact if_neg hreadable

end FileSystem

end ImportChart
