import ImportChart.Proofs.Tree.Routes

/-!
# One tree for one set of paths

Each level of the tree of a list of paths is made from the names that occur there, sorted and each
once. So the tree depends on which paths there are, and neither on their order nor on how often they
are given (`Tree.ofPaths_congr`). Paths that differ only in empty segments count as one, and a path
without any other segment does not count at all.

Two lists with the same members are enough on every level: the names of a level and the paths below
a name have the same members again, and sorting makes the lists of names the same
(`sortedNames_congr`).
-/

namespace ImportChart

variable {paths others : List (List String)} {depth : Nat}

/-- Sorted names are in order. -/
theorem pairwise_sortedNames (names : List String) : (sortedNames names).Pairwise (· ≤ ·) := by
  have htrans : ∀ a b c : String, decide (a ≤ b) = true → decide (b ≤ c) = true →
      decide (a ≤ c) = true :=
    fun _ _ _ hab hbc =>
      decide_eq_true (String.le_trans (of_decide_eq_true hab) (of_decide_eq_true hbc))
  have htotal : ∀ a b : String, (decide (a ≤ b) || decide (b ≤ a)) = true := fun a b =>
    Bool.or_eq_true_iff.mpr ((String.le_total a b).imp decide_eq_true decide_eq_true)
  exact (List.pairwise_mergeSort htrans htotal (firsts names)).imp of_decide_eq_true

/-- The names of a level are strictly in order. -/
theorem pairwise_lt_sortedNames (names : List String) : (sortedNames names).Pairwise (· < ·) :=
  ((pairwise_sortedNames names).and (nodup_sortedNames names)).imp fun ⟨hle, hne⟩ =>
    Std.lt_of_le_of_ne hle hne

/-- Names that are in order already are left as they are. -/
theorem sortedNames_eq_of_pairwise {names sorted : List String}
    (hmem : ∀ name, name ∈ names ↔ name ∈ sorted) (hsorted : sorted.Pairwise (· < ·)) :
    sortedNames names = sorted := by
  have hle : sorted.Pairwise (· ≤ ·) := hsorted.imp fun hlt => Std.le_of_lt hlt
  refine List.Perm.eq_of_pairwise (fun _ _ _ _ => String.le_antisymm)
    (pairwise_sortedNames names) hle ?_
  refine (List.perm_ext_iff_of_nodup (nodup_sortedNames names) hsorted.nodup).mpr fun name => ?_
  rw [mem_sortedNames, hmem]

/-- Lists with the same names are sorted to one list. -/
theorem sortedNames_congr {names more : List String} (h : ∀ name, name ∈ names ↔ name ∈ more) :
    sortedNames names = sortedNames more := by
  have hmem : ∀ name, name ∈ sortedNames names ↔ name ∈ sortedNames more := fun name => by
    rw [mem_sortedNames, mem_sortedNames, h]
  refine List.Perm.eq_of_pairwise (fun _ _ _ _ => String.le_antisymm) (pairwise_sortedNames names)
    (pairwise_sortedNames more) ?_
  exact (List.perm_ext_iff_of_nodup (nodup_sortedNames names) (nodup_sortedNames more)).mpr hmem

/-- The entries of a directory depend on which paths there are below it, apart from the empty
one. -/
theorem entriesBelow_congr (h : ∀ route, route ≠ [] → (route ∈ paths ↔ route ∈ others))
    (parent : String) :
    entriesBelow depth parent paths = entriesBelow depth parent others := by
  induction depth generalizing parent paths others with
  | zero => rfl
  | succ depth ih =>
    have hbelow : ∀ name route, route ∈ pathsBelow name paths ↔ route ∈ pathsBelow name others := by
      intro name route
      rw [mem_pathsBelow, mem_pathsBelow, h _ (List.cons_ne_nil name route)]
    have hdirectories : sortedNames (directoryNames paths) = sortedNames (directoryNames others) :=
      sortedNames_congr fun name => by
        rw [mem_directoryNames, mem_directoryNames]
        exact exists_congr (hbelow name)
    have hfiles : sortedNames (fileNames paths) = sortedNames (fileNames others) :=
      sortedNames_congr fun name => by
        rw [mem_fileNames, mem_fileNames, h _ (List.cons_ne_nil name [])]
    rw [entriesBelow, entriesBelow, hdirectories, hfiles]
    refine congrArg (· ++ _) (List.map_congr_left fun name _ => ?_)
    dsimp only
    rw [ih fun route _ => hbelow name route]

theorem foldl_max_le_iff {bound start : Nat} {numbers : List Nat} :
    numbers.foldl max start ≤ bound ↔ start ≤ bound ∧ ∀ number ∈ numbers, number ≤ bound := by
  induction numbers generalizing start with
  | nil => exact (and_iff_left fun _ hmem => absurd hmem List.not_mem_nil).symm
  | cons number rest ih => rw [List.foldl_cons, ih, Nat.max_le, List.forall_mem_cons, and_assoc]

namespace Tree

/-- Lists of paths that have the same paths, empty segments left out, make one tree, and no matter
whether there are paths without any other segment. -/
theorem ofPaths_congr {files more : List String}
    (h : ∀ route, route ≠ [] →
      (route ∈ files.map Path.namedSegments ↔ route ∈ more.map Path.namedSegments)) :
    ofPaths files = ofPaths more := by
  have hbound : ∀ bound, ((files.map Path.namedSegments).map List.length).foldl max 0 ≤ bound ↔
      ((more.map Path.namedSegments).map List.length).foldl max 0 ≤ bound := by
    intro bound
    rw [foldl_max_le_iff, foldl_max_le_iff]
    refine and_congr_right fun _ =>
      List.forall_mem_map.trans (Iff.trans ?_ List.forall_mem_map.symm)
    refine forall_congr' fun route => ?_
    by_cases hroute : route = []
    · -- the empty path is not longer than any
      rw [hroute]
      exact iff_of_true (fun _ => Nat.zero_le _) fun _ => Nat.zero_le _
    · exact imp_congr_left (h route hroute)
  have hdepth := Nat.le_antisymm ((hbound _).mpr (Nat.le_refl _)) ((hbound _).mp (Nat.le_refl _))
  rw [ofPaths, ofPaths, hdepth, entriesBelow_congr h]

/-- The files of the tree of a list of paths are at these paths, empty segments left out. -/
theorem mem_filePaths_ofPaths {files : List String} {path : String} :
    path ∈ (ofPaths files).filePaths ↔
      ∃ file ∈ files, Path.namedSegments file ≠ [] ∧
        Path.ofSegments (Path.namedSegments file) = path := by
  rw [← map_path_placedFiles 0, placedFiles_ofPaths, List.map_map, List.mem_map]
  constructor
  · rintro ⟨route, hroute, rfl⟩
    obtain ⟨hmem, hne, -⟩ := mem_routesBelow.mp hroute
    obtain ⟨file, hfile, rfl⟩ := List.mem_map.mp hmem
    exact ⟨file, hfile, hne, rfl⟩
  · rintro ⟨file, hfile, hne, rfl⟩
    have hmem : Path.namedSegments file ∈ files.map Path.namedSegments := List.mem_map_of_mem hfile
    -- no path is longer than the longest
    have hlength : (Path.namedSegments file).length ≤
        ((files.map Path.namedSegments).map List.length).foldl max 0 :=
      (foldl_max_le_iff.mp (Nat.le_refl _)).2 _ (List.mem_map_of_mem hmem)
    exact ⟨Path.namedSegments file, mem_routesBelow.mpr ⟨hmem, hne, hlength⟩, rfl⟩

/-- The path of a file of the tree has no empty segments. -/
theorem ofSegments_namedSegments_of_mem {files : List String} {path : String}
    (h : path ∈ (ofPaths files).filePaths) :
    Path.ofSegments (Path.namedSegments path) = path := by
  obtain ⟨file, -, -, rfl⟩ := mem_filePaths_ofPaths.mp h
  rw [Path.namedSegments_ofSegments fun name hname => Path.isName_of_mem_namedSegments hname]

end Tree

end ImportChart
