import ImportChart.Proofs.Language.Recognition
import ImportChart.Proofs.Reference.Resolution
import Mathlib.Data.List.Basic
import Mathlib.Data.List.Find

/-!
# References from within a directory

A reference is joined to the directory of its source by a walk over a stack of names. A walk that
does not fail sees only the top of the stack, and keeps what lies below
(`joinSegments_append_outer`). Two laws follow.

A **relative token** climbs from the directory of a file to one that lies around it, and leads down
from there to another file. It resolves to this file if the file is known (`resolve_relativeToken`).
The path as it stands is tried before any suffix, so no other known path comes in its place.

**Moving** a whole tree into a directory moves what every reference leads to, unless the reference
leaves the root or is joined to the root itself (`resolve_under`). The root is no exception of the
walk: behind its empty path a suffix stays what it is, and behind the path of a directory the same
suffix makes the path of a file in it.
-/

namespace ImportChart

/-! ## Walks in a deeper directory -/

/-- A walk over two lists of segments is one walk after the other. -/
theorem joinSegments_append (directory first rest : List String) :
    joinSegments directory (first ++ rest) =
      (joinSegments directory first).bind (joinSegments · rest) := by
  induction first generalizing directory with
  | nil => rfl
  | cons segment first ih =>
    rw [List.cons_append]
    rcases segment_cases segment with hstay | rfl | hdown
    · rw [joinSegments_stay hstay, joinSegments_stay hstay, ih]
    · cases directory with
      | nil => rw [joinSegments_up_nil, joinSegments_up_nil, Option.bind_none]
      | cons inner outer => rw [joinSegments_up_cons, joinSegments_up_cons, ih]
    · rw [joinSegments_down hdown, joinSegments_down hdown, ih]

/-- A walk that does not fail keeps the directories around the ones it starts in. -/
theorem joinSegments_append_outer {directory segments result : List String}
    (h : joinSegments directory segments = some result) (outer : List String) :
    joinSegments (directory ++ outer) segments = some (result ++ outer) := by
  induction segments generalizing directory with
  | nil =>
    cases h
    rfl
  | cons segment rest ih =>
    rcases segment_cases segment with hstay | rfl | hdown
    · rw [joinSegments_stay hstay] at h ⊢
      exact ih h
    · cases directory with
      | nil =>
        rw [joinSegments_up_nil] at h
        cases h
      | cons inner between =>
        rw [joinSegments_up_cons] at h
        rw [List.cons_append, joinSegments_up_cons]
        exact ih h
    · rw [joinSegments_down hdown] at h ⊢
      exact ih h

/-- As many double dots as there are directories lead out of all of them. -/
theorem joinSegments_replicate_up (directory : List String) :
    joinSegments directory (List.replicate directory.length "..") = some [] := by
  induction directory with
  | nil => rfl
  | cons inner outer ih =>
    rw [List.length_cons, List.replicate_succ, joinSegments_up_cons]
    exact ih

/-- Segments that lead down all end on the stack. -/
theorem joinSegments_of_leadsDown {segments : List String}
    (h : ∀ segment ∈ segments, leadsDown segment = true) (directory : List String) :
    joinSegments directory segments = some (segments.reverse ++ directory) := by
  induction segments generalizing directory with
  | nil => rfl
  | cons segment rest ih =>
    have hrest : ∀ segment ∈ rest, leadsDown segment = true := by
      intro other hother
      exact h other (List.mem_cons_of_mem _ hother)
    rw [joinSegments_down (h segment List.mem_cons_self), ih hrest, List.reverse_cons,
      List.append_assoc]
    rfl

/-! ## Relative tokens -/

/-- The segments that climb some levels: as many double dots, or a single dot if there is nothing to
climb. -/
def climbing (levels : Nat) : List String :=
  if levels = 0 then ["."] else List.replicate levels ".."

/-- The token that climbs some levels and then leads down. -/
def relativeToken (levels : Nat) (down : List String) : String :=
  Path.ofSegments (climbing levels ++ down)

theorem climbing_succ (levels : Nat) : climbing (levels + 1) = ".." :: List.replicate levels ".." :=
  if_neg (Nat.succ_ne_zero levels)

theorem slash_not_mem_of_mem_climbing {levels : Nat} {segment : String}
    (h : segment ∈ climbing levels) :
    '/' ∉ segment.toList := by
  unfold climbing at h
  split at h
  · rw [List.mem_singleton.mp h]
    decide
  · rw [List.eq_of_mem_replicate h]
    decide

/-- To climb as many levels as there are directories leads out of them, into the ones around. -/
theorem joinSegments_climbing (inner outer : List String) :
    joinSegments (inner ++ outer) (climbing inner.length) = some outer := by
  cases inner with
  | nil => rfl
  | cons first rest =>
    exact joinSegments_append_outer (joinSegments_replicate_up (first :: rest)) outer

section Relative

variable {inner outer down : List String} {name : String}

/-- A relative token starts with one or two dots and a slash. -/
theorem pathRelative_relativeToken (levels : Nat) (hdown : down ≠ []) :
    PathRelative (relativeToken levels down) := by
  unfold relativeToken
  cases levels with
  | zero =>
    apply Or.inl
    show "./".toList <+: (Path.ofSegments ("." :: down)).toList
    rw [Path.ofSegments_cons hdown, String.toList_append]
    exact List.prefix_append _ _
  | succ levels =>
    have hrest : List.replicate levels ".." ++ down ≠ [] :=
      List.append_ne_nil_of_right_ne_nil _ hdown
    apply Or.inr
    rw [climbing_succ, List.cons_append, Path.ofSegments_cons hrest, String.toList_append]
    exact List.prefix_append _ _

/-- A relative token is joined to the file that it leads down to, from the directory it climbs
to. -/
theorem joinRelative_relativeToken (houter : ∀ segment ∈ outer, Path.IsName segment)
    (hinner : ∀ segment ∈ inner, Path.IsName segment) (hname : '/' ∉ name.toList)
    (hdown : ∀ segment ∈ down, Path.IsName segment ∧ leadsDown segment = true) (hne : down ≠ []) :
    joinRelative (Path.ofSegments (outer ++ inner ++ [name])) (relativeToken inner.length down) =
      some (Path.ofSegments (outer ++ down)) := by
  have hdirectory :
      Path.directory (Path.ofSegments (outer ++ inner ++ [name])) = outer ++ inner := by
    apply Path.directory_ofSegments_concat _ hname
    intro segment hsegment
    rcases List.mem_append.mp hsegment with hmem | hmem
    · exact houter segment hmem
    · exact hinner segment hmem
  have hsegments :
      Path.segments (relativeToken inner.length down) = climbing inner.length ++ down := by
    apply Path.segments_ofSegments _ (List.append_ne_nil_of_right_ne_nil _ hne)
    intro segment hsegment
    rcases List.mem_append.mp hsegment with hmem | hmem
    · exact slash_not_mem_of_mem_climbing hmem
    · exact (hdown segment hmem).1.2
  -- the stack has its top at the head: the directories to be left lie above the ones to be kept
  have hclimb :
      joinSegments (outer ++ inner).reverse (climbing inner.length) = some outer.reverse := by
    rw [List.reverse_append, ← List.length_reverse]
    exact joinSegments_climbing inner.reverse outer.reverse
  have hwalk : joinSegments (outer ++ inner).reverse (climbing inner.length ++ down) =
      some (outer ++ down).reverse := by
    rw [joinSegments_append, hclimb, Option.bind_some, List.reverse_append]
    exact joinSegments_of_leadsDown (fun segment hmem => (hdown segment hmem).2) outer.reverse
  rw [joinRelative, hdirectory, hsegments, hwalk, Option.map_some, List.reverse_reverse]

/-- The path as it stands is tried before all suffixes. -/
theorem Language.exists_suffixes_eq_cons (language : Language) :
    ∃ later, language.profile.suffixes = "" :: later := by
  cases language <;> exact ⟨_, rfl⟩

/-- **A relative path leads to its file.** Let a file stand in a directory `inner` of a directory
`outer`, and let another file have the path `down` from `outer`. If the other file is known, then
the token that climbs the levels of `inner` and leads down `down` resolves to it, in every language
and whatever other paths are known. -/
theorem resolve_relativeToken (known : List String)
    (houter : ∀ segment ∈ outer, Path.IsName segment)
    (hinner : ∀ segment ∈ inner, Path.IsName segment) (hname : '/' ∉ name.toList)
    (hdown : ∀ segment ∈ down, Path.IsName segment ∧ leadsDown segment = true) (hne : down ≠ [])
    (hknown : Path.ofSegments (outer ++ down) ∈ known) :
    resolve (Path.ofSegments (outer ++ inner ++ [name])) (relativeToken inner.length down) known =
        .resolved (Path.ofSegments (outer ++ down)) ∧
      ∀ language : Language,
        language.resolve (Path.ofSegments (outer ++ inner ++ [name]))
          (relativeToken inner.length down) known =
          .resolved (Path.ofSegments (outer ++ down)) := by
  have hrelative : PathRelative (relativeToken inner.length down) :=
    pathRelative_relativeToken _ hne
  have hjoin := joinRelative_relativeToken houter hinner hname hdown hne
  have hlanguage : ∀ language : Language,
      language.resolve (Path.ofSegments (outer ++ inner ++ [name]))
        (relativeToken inner.length down) known =
        .resolved (Path.ofSegments (outer ++ down)) := by
    intro language
    obtain ⟨later, hlater⟩ := language.exists_suffixes_eq_cons
    have hexact : Path.ofSegments (outer ++ down) ++ "" = Path.ofSegments (outer ++ down) :=
      String.append_empty
    apply ((language.resolve_of_joinRelative hrelative hjoin).1 _).mpr
    refine ⟨"", ⟨[], later, hlater, ?_, ?_⟩, hexact.symm⟩
    · rw [hexact]
      exact hknown
    · intro other hother
      exact absurd hother List.not_mem_nil
  exact ⟨hlanguage (Language.detect _), hlanguage⟩

/-- From two levels down and from the same directory, past known paths that later suffixes make. -/
theorem resolve_relativeToken_past_suffixes :
    resolve "src/ui/forms/a.js" "../../lib/api" ["src/lib/api.js",
      "src/lib/api/index.js", "src/lib/api"] =
        .resolved "src/lib/api" ∧
      Language.python.resolve "a.py" "./b" ["b.py", "b/__init__.py", "b"] = .resolved "b" := by
  constructor
  · have h := @resolve_relativeToken ["ui", "forms"] ["src"] ["lib", "api"] "a.js"
      ["src/lib/api.js", "src/lib/api/index.js", "src/lib/api"]
        (by simp [Path.IsName]) (by simp [Path.IsName])
      (by decide) (by simp [Path.IsName, leadsDown]) (by decide) (by decide)
    exact h.1
  · have h :=
      @resolve_relativeToken [] [] ["b"] "a.py" ["b.py", "b/__init__.py", "b"] (by simp) (by simp)
      (by decide) (by simp [Path.IsName, leadsDown]) (by decide) (by decide)
    exact h.2 .python

end Relative

/-! ## Moving a tree -/

/-- The path of a file after its tree is moved into a directory. -/
def Path.under (directory path : String) : String :=
  directory ++ "/" ++ path

/-- The outcome of the same reference after its tree is moved into a directory. -/
def Resolution.under (directory : String) : Resolution → Resolution
  | .resolved path => .resolved (Path.under directory path)
  | .unresolved (.notFound base) => .unresolved (.notFound (Path.under directory base))
  | .unresolved .notPathRelative => .unresolved .notPathRelative
  | .unresolved .escapesRoot => .unresolved .escapesRoot

section Moved

variable {directory : String}

/-- A moved source is read in the language it was read in. -/
theorem Language.detect_under (directory source : String) :
    detect (Path.under directory source) = detect source := by
  unfold detect Path.under
  rw [recognize_append_slash]

theorem Path.under_injective (directory : String) : Function.Injective (Path.under directory) := by
  intro path other h
  exact (String.append_right_inj (directory ++ "/")).mp h

/-- A token that is joined to a path other than the root is joined to the moved path in the moved
tree. -/
theorem joinRelative_under {source token base : String} (hdirectory : Path.IsName directory)
    (hjoin : joinRelative source token = some base) (hroot : base ≠ "") :
    joinRelative (Path.under directory source) token = some (Path.under directory base) := by
  obtain ⟨result, hwalk, hbase⟩ := Option.map_eq_some_iff.mp hjoin
  have hnames : result.reverse ≠ [] := by
    intro hnil
    rw [hnil] at hbase
    exact hroot hbase.symm
  have hstack : (Path.directory (Path.under directory source)).reverse =
      (Path.directory source).reverse ++ [directory] := by
    rw [Path.under, Path.directory_append_slash hdirectory, List.reverse_cons]
  have hmoved :
      joinSegments (Path.directory (Path.under directory source)).reverse (Path.segments token) =
      some (result ++ [directory]) := by
    rw [hstack]
    exact joinSegments_append_outer hwalk [directory]
  rw [joinRelative, hmoved, Option.map_some, List.reverse_append, List.reverse_singleton,
    List.singleton_append, Path.ofSegments_cons hnames, hbase]
  rfl

/-- The trial of suffixes has the same outcome for the moved path among the moved known paths. -/
theorem find?_suffixes_under (directory base : String) (known suffixes : List String) :
    (suffixes.map (Path.under directory base ++ ·)).find?
      (known.map (Path.under directory)).contains =
      ((suffixes.map (base ++ ·)).find? known.contains).map (Path.under directory) := by
  have hmoved : suffixes.map (Path.under directory base ++ ·) =
      (suffixes.map (base ++ ·)).map (Path.under directory) := by
    rw [List.map_map]
    apply List.map_congr_left
    intro suffix _
    exact String.append_assoc
  rw [hmoved, List.find?_map]
  congr 1
  apply List.find?_congr
  intro path _
  rw [Bool.eq_iff_iff, Function.comp_apply, List.contains_iff_mem, List.contains_iff_mem]
  exact List.mem_map_of_injective (Path.under_injective directory)

/-- **Moving a tree moves what references lead to.** Let the source and all known paths be moved
into a directory. A reference that does not leave the root and is not joined to the root itself has
the same outcome as before: it is not path-relative, it resolves to the moved path, or nothing is
found behind the moved joined path. -/
theorem resolve_under {source token : String} {known : List String}
    (hdirectory : Path.IsName directory)
    (hescapes : resolve source token known ≠ .unresolved .escapesRoot)
    (hroot : PathRelative token → joinRelative source token ≠ some "") :
    resolve (Path.under directory source) token (known.map (Path.under directory)) =
      (resolve source token known).under directory := by
  by_cases hrelative : PathRelative token
  · cases hjoin : joinRelative source token with
    | none =>
      rw [resolve_of_pathRelative hrelative, hjoin] at hescapes
      exact absurd rfl hescapes
    | some base =>
      have hbase : base ≠ "" := by
        rintro rfl
        exact hroot hrelative hjoin
      rw [resolve_of_pathRelative hrelative, resolve_of_pathRelative hrelative, hjoin,
        joinRelative_under hdirectory hjoin hbase, Language.detect_under]
      simp only [find?_suffixes_under]
      cases ((Language.detect source).profile.suffixes.map (base ++ ·)).find? known.contains with
      | none => rfl
      | some path => rfl
  · rw [resolve_of_not_pathRelative hrelative, resolve_of_not_pathRelative hrelative]
    rfl

/-- A reference that is found up and down again, and one that is not. -/
theorem resolve_under_project :
    resolve "project/src/ui/a.js" "../../lib/.//b" ["project/lib/b/index.js", "project/b"] =
        .resolved "project/lib/b/index.js" ∧
      resolve "project/a.py" "./b" ["project/b.js"] = .unresolved (.notFound "project/b") := by
  constructor
  · exact @resolve_under "project" "src/ui/a.js" "../../lib/.//b" ["lib/b/index.js", "b"]
      (by simp [Path.IsName])
      (by decide) (fun _ => by decide)
  · exact @resolve_under "project" "a.py" "./b" ["b.js"] (by simp [Path.IsName]) (by decide)
      (fun _ => by decide)

-- the root is apart: its index file is found only in the moved tree
example : resolve "src/a.js" "../" ["index.js"] = .unresolved (.notFound "") ∧
    resolve "d/src/a.js" "../" ["d/index.js"] = .resolved "d/index.js" := by decide

end Moved

end ImportChart
