import ImportChart.Loading

/-!
# What a walk loads

Loading goes along a walk and stops at the first item that it cannot pass: where the walk fails, or
where it comes to a file that is to be read and cannot be (`FileSystem.StopsAt`). It fails exactly
if there is such an item, with the failure of the first one (`FileSystem.loadVisits_eq_error_iff`).
Along a walk that does not fail and finds files that can be read it loads them all
(`FileSystem.Finds.loadVisits`).

Both hold of any walk. The walk through a directory without ignore files finds the files that are
not hidden, if they can be read (`FileSystem.finds_visibleFiles`).
-/

namespace ImportChart

namespace FileSystem

variable {system : FileSystem} {directory place : Place} {includeUnrecognized : Bool}
  {item : Except String Visit} {items before after : List (Except String Visit)} {failure : Failure}
  {files loaded : List (String × String)} {root : String}

theorem readAt_eq_ok_iff {bytes : List UInt8} :
    system.readAt place = .ok bytes ↔
      system.content? place = some bytes ∧ place ∉ system.unreadable := by
  rw [readAt, content?]
  cases system.get? place with
  | none => simp
  | some entry =>
    cases entry with
    | directory => simp
    | file content =>
      dsimp only
      split
      · next hmem => simp [hmem]
      · next hmem => simp [hmem]

/-! ## Where loading stops -/

/-- What loading cannot pass: a failure of the walk, or a file that is to be read and cannot be. -/
inductive StopsAt (system : FileSystem) (directory : Place) (includeUnrecognized : Bool) :
    Except String Visit → Failure → Prop where
  | walk (cause : String) : StopsAt system directory includeUnrecognized (.error cause) (.io cause)
  | file {visit : Visit} {cause : FileError} : visit.isFile = true →
      isRead includeUnrecognized visit.path = true →
      system.readAt (directory ++ visit.names) = .error cause →
      StopsAt system directory includeUnrecognized (.ok visit) (.io cause.message)

theorem StopsAt.loadVisits (h : system.StopsAt directory includeUnrecognized item failure)
    (after : List (Except String Visit)) :
    system.loadVisits directory includeUnrecognized (item :: after) = .error failure := by
  cases h with
  | walk cause => rfl
  | file hfile hread hcause =>
    rw [FileSystem.loadVisits, if_pos hfile, loadText, if_pos hread, hcause]
    rfl

/-- Loading stops at an item, or it passes the item with what it has found there. -/
theorem stopsAt_or_passes (system : FileSystem) (directory : Place) (includeUnrecognized : Bool)
    (item : Except String Visit) :
    (∃ failure, system.StopsAt directory includeUnrecognized item failure) ∨
      ∃ found, ∀ after, system.loadVisits directory includeUnrecognized (item :: after) =
        (system.loadVisits directory includeUnrecognized after).map (found ++ ·) := by
  cases item with
  | error cause => exact .inl ⟨_, .walk cause⟩
  | ok visit =>
    by_cases hfile : visit.isFile = true
    · cases htext : system.loadText directory includeUnrecognized visit with
      | ok text =>
        exact .inr ⟨[(visit.path, text)], fun after => by simp [loadVisits, hfile, htext]⟩
      | error cause =>
        rw [loadText] at htext
        split at htext
        · next hread =>
          cases hbytes : system.readAt (directory ++ visit.names) with
          | ok bytes =>
            rw [hbytes] at htext
            cases htext
          | error cause => exact .inl ⟨_, .file hfile hread hbytes⟩
        · cases htext
    · refine .inr ⟨[], fun after => ?_⟩
      rw [loadVisits, if_neg hfile]
      exact (congrFun Except.map_id _).symm

/-- What is loaded along two walks is loaded along one after the other. -/
theorem loadVisits_append (h : system.loadVisits directory includeUnrecognized before = .ok loaded)
    (after : List (Except String Visit)) :
    system.loadVisits directory includeUnrecognized (before ++ after) =
      (system.loadVisits directory includeUnrecognized after).map (loaded ++ ·) := by
  induction before generalizing loaded with
  | nil =>
    cases h
    exact (congrFun Except.map_id _).symm
  | cons item before ih =>
    obtain ⟨failure, hstops⟩ | ⟨found, hpasses⟩ :=
      stopsAt_or_passes system directory includeUnrecognized item
    · cases (hstops.loadVisits before).symm.trans h
    · rw [hpasses] at h
      cases hbefore : system.loadVisits directory includeUnrecognized before with
      | error cause =>
        rw [hbefore] at h
        cases h
      | ok more =>
        rw [hbefore] at h
        cases h
        rw [List.cons_append, hpasses, ih hbefore]
        cases system.loadVisits directory includeUnrecognized after with
        | error cause => rfl
        | ok rest => exact congrArg Except.ok (List.append_assoc found more rest).symm

/-- Loading fails at the first item that it cannot pass. -/
theorem loadVisits_eq_error_iff :
    system.loadVisits directory includeUnrecognized items = .error failure ↔
      ∃ before item after loaded, items = before ++ item :: after ∧
        system.loadVisits directory includeUnrecognized before = .ok loaded ∧
        system.StopsAt directory includeUnrecognized item failure := by
  constructor
  · intro h
    induction items with
    | nil => cases h
    | cons item rest ih =>
      obtain ⟨cause, hstops⟩ | ⟨found, hpasses⟩ :=
        stopsAt_or_passes system directory includeUnrecognized item
      · cases (hstops.loadVisits rest).symm.trans h
        exact ⟨[], item, rest, [], rfl, rfl, hstops⟩
      · rw [hpasses] at h
        have hrest : system.loadVisits directory includeUnrecognized rest = .error failure := by
          cases hrest : system.loadVisits directory includeUnrecognized rest with
          | error cause =>
            rw [hrest] at h
            exact h
          | ok more =>
            rw [hrest] at h
            cases h
        obtain ⟨before, stop, after, loaded, rfl, hbefore, hstops⟩ := ih hrest
        refine ⟨item :: before, stop, after, found ++ loaded, rfl, ?_, hstops⟩
        rw [hpasses, hbefore]
        rfl
  · rintro ⟨before, item, after, loaded, rfl, hbefore, hstops⟩
    rw [loadVisits_append hbefore, hstops.loadVisits]
    rfl

/-- A directory is not loaded exactly if there is none, or loading stops on the walk through it. -/
theorem loadFiles_eq_error_iff {walk : Walk} :
    system.loadFiles walk root includeUnrecognized = .error failure ↔
      (system.directoryAt? root = none ∧ failure = .io ("input directory not found: " ++ root)) ∨
        ∃ directory before item after loaded, system.directoryAt? root = some directory ∧
          walk system root = before ++ item :: after ∧
          system.loadVisits directory includeUnrecognized before = .ok loaded ∧
          system.StopsAt directory includeUnrecognized item failure := by
  rw [loadFiles]
  cases system.directoryAt? root with
  | none => simp [eq_comm]
  | some directory =>
    rw [loadVisits_eq_error_iff]
    simp

theorem snapshot_of_loadFiles {walk : Walk}
    (h : system.loadFiles walk root includeUnrecognized = .ok loaded) :
    system.snapshot walk root includeUnrecognized = .ok (.ofLoaded loaded) := by
  rw [snapshot, h]
  rfl

/-! ## What a walk finds -/

/-- A walk that does not fail comes to these regular files, and each of them can be read. -/
inductive Finds (system : FileSystem) (directory : Place) :
    List (Except String Visit) → List (String × List UInt8) → Prop where
  | done : Finds system directory [] []
  | file {visit : Visit} {bytes : List UInt8} {items : List (Except String Visit)}
      {files : List (String × List UInt8)} : visit.isFile = true →
      system.readAt (directory ++ visit.names) = .ok bytes → Finds system directory items files →
      Finds system directory (.ok visit :: items) ((visit.path, bytes) :: files)
  | other {visit : Visit} {items : List (Except String Visit)}
      {files : List (String × List UInt8)} : visit.isFile = false →
      Finds system directory items files → Finds system directory (.ok visit :: items) files

/-- Files as they are loaded: as text if they are read, and empty otherwise. -/
def loadedTexts (includeUnrecognized : Bool) (files : List (String × List UInt8)) :
    List (String × String) :=
  files.map fun file =>
    (file.1, if isRead includeUnrecognized file.1 then Utf8.lossyText file.2 else "")

theorem Finds.loadVisits {files : List (String × List UInt8)}
    (h : system.Finds directory items files) (includeUnrecognized : Bool) :
    system.loadVisits directory includeUnrecognized items =
      .ok (loadedTexts includeUnrecognized files) := by
  induction h with
  | done => rfl
  | other hfile _ ih => rw [FileSystem.loadVisits, hfile, if_neg Bool.false_ne_true, ih]
  | @file visit bytes items files hfile hbytes _ ih =>
    have htext : system.loadText directory includeUnrecognized visit =
        .ok (if isRead includeUnrecognized visit.path then Utf8.lossyText bytes else "") := by
      rw [loadText, hbytes]
      split
      · rfl
      · rfl
    rw [FileSystem.loadVisits, if_pos hfile, htext, ih]
    rfl

/-- The regular files of the directory at a path that are not hidden, each with its path from there
and its bytes. -/
def visibleFiles (system : FileSystem) (root : String) : List (String × List UInt8) :=
  match system.directoryAt? root with
  | none => []
  | some directory =>
    if isStandardInput root then []
    else (system.visibleNames directory).filterMap fun names =>
      (system.content? (directory ++ names)).map fun bytes => (Path.ofSegments names, bytes)

/-- A walk through a directory without ignore files finds all that is not hidden. -/
theorem finds_visibleFiles (hdirectory : system.directoryAt? root = some directory)
    (hreadable : ∀ names, isHidden names = false → directory ++ names ∉ system.unreadable) :
    system.Finds directory (Walk.plain system root) (system.visibleFiles root) := by
  rw [Walk.plain, visibleFiles, hdirectory]
  dsimp only
  split
  · exact .done
  have hvisible : ∀ names ∈ system.visibleNames directory, isHidden names = false := by
    intro names hnames
    simpa using (List.mem_filter.mp hnames).2
  generalize system.visibleNames directory = shown at hvisible ⊢
  induction shown with
  | nil => exact .done
  | cons names rest ih =>
    have hrest := ih fun other hother => hvisible other (List.mem_cons_of_mem names hother)
    have hown := hreadable names (hvisible names List.mem_cons_self)
    rw [List.map_cons, List.filterMap_cons]
    cases hcontent : system.content? (directory ++ names) with
    | none => exact .other rfl hrest
    | some bytes => exact .file rfl (readAt_eq_ok_iff.mpr ⟨hcontent, hown⟩) hrest

end FileSystem

end ImportChart
