import ImportChart.Analysis
import ImportChart.Summary
import Mathlib.Data.List.Nodup

/-!
# What a summary counts

A summary ranks the dependencies of a set of files by how long their lists of users are, the longest
first, and keeps the order of first records among equals. This module says what those lists hold:
the path of a file once for each record of the name in it (`Summary.uses`), in the order of the
files.

A list of the files that use a dependency would hold each file once (`Summary.users`), and a ranking
by these lists would count files. The two agree, for every name, exactly if no file reaches a name
by two records (`Summary.ofFiles_ranks`). A file does when two of its tokens lead to one target: a
path with and without its suffix.
-/

namespace ImportChart

/-! ## Stable sorting -/

section Stable

variable {α : Type} (key : α → Nat)

theorem descending_trans (a b c : α) (hab : decide (key b ≤ key a) = true)
    (hbc : decide (key c ≤ key b) = true) :
    decide (key c ≤ key a) = true :=
  decide_eq_true (Nat.le_trans (of_decide_eq_true hbc) (of_decide_eq_true hab))

theorem descending_total (a b : α) : (decide (key b ≤ key a) || decide (key a ≤ key b)) = true := by
  rw [Bool.or_eq_true, decide_eq_true_eq, decide_eq_true_eq]
  exact Nat.le_total _ _

/-- Sorting by a number, the largest first, leaves those with one number in their order. -/
theorem filter_mergeSort_key (xs : List α) (n : Nat) :
    (xs.mergeSort fun a b => decide (key b ≤ key a)).filter (fun a => decide (key a = n)) =
      xs.filter fun a => decide (key a = n) := by
  have hsorted : (xs.filter fun a => decide (key a = n)).Pairwise fun a b =>
      decide (key b ≤ key a) = true := by
    apply List.pairwise_of_forall_mem_list
    intro a ha b hb
    have ha := of_decide_eq_true (List.mem_filter.mp ha).2
    have hb := of_decide_eq_true (List.mem_filter.mp hb).2
    exact decide_eq_true (by omega)
  have hsublist : (xs.filter fun a => decide (key a = n)).Sublist
      ((xs.mergeSort fun a b => decide (key b ≤ key a)).filter fun a => decide (key a = n)) := by
    have h := (List.sublist_mergeSort (descending_trans key) (descending_total key) hsorted
      List.filter_sublist).filter fun a => decide (key a = n)
    rwa [List.filter_filter, List.filter_congr fun a _ => Bool.and_self _] at h
  have hperm :=
    (List.mergeSort_perm xs fun a b => decide (key b ≤ key a)).filter fun a => decide (key a = n)
  exact (hsublist.eq_of_length hperm.length_eq.symm).symm

end Stable

/-- The names of the dependencies of a file, one for each record. -/
def ResolvedFile.summaryNames (file : ResolvedFile) : List String :=
  file.dependencies.map (·.summaryName)

namespace Summary

/-! ## Users of a name -/

/-- The names of the dependencies of files, in the order of their first records. -/
def names (files : List ResolvedFile) : List String :=
  firsts (files.flatMap (·.summaryNames))

/-- The files with a record of a name, each once. -/
def users (files : List ResolvedFile) (name : String) : List String :=
  (files.filter fun file => decide (name ∈ file.summaryNames)).map (·.path)

/-- The files of the records of a name, each once for each record. -/
def uses (files : List ResolvedFile) (name : String) : List String :=
  files.flatMap fun file => List.replicate (file.summaryNames.count name) file.path

/-- Usages rank names, given in their first order, by lists of paths: each usage has the list of its
name, the longest lists come first, and names with lists of one length keep their order. -/
structure RanksBy (paths : String → List String) (names : List String)
    (usages : List Usage) : Prop where
  usedIn : ∀ usage ∈ usages, usage.usedIn = paths usage.name
  ranked : usages.Pairwise fun usage later => (paths later.name).length ≤ (paths usage.name).length
  ties : ∀ n, (usages.filter fun usage => decide ((paths usage.name).length = n)).map (·.name) =
    names.filter fun name => decide ((paths name).length = n)

/-! ## The lists of a summary -/

section OfFiles

variable {files : List ResolvedFile}

theorem map_summaryName_records (files : List ResolvedFile) :
    (records files).map (fun record => record.2.summaryName) = files.flatMap (·.summaryNames) := by
  unfold records ResolvedFile.summaryNames
  rw [List.map_flatMap]
  simp only [List.map_map, Function.comp_def]

/-- The usages have the names of the records, in the order of the first records. -/
theorem map_name_usagesOf_eq_firsts (records : List (String × Dependency)) :
    (usagesOf records).map (·.name) = firsts (records.map fun record => record.2.summaryName) := by
  unfold usagesOf firsts
  rw [List.map_map, ← map_firstsBy]
  rfl

theorem map_name_usagesOf (files : List ResolvedFile) :
    (usagesOf (records files)).map (·.name) = names files := by
  rw [map_name_usagesOf_eq_firsts, map_summaryName_records]
  rfl

/-- The paths of the records of a name are those of the files, each as often as it has such a
record. -/
theorem map_fst_filter_records (files : List ResolvedFile) (name : String) :
    ((records files).filter fun record => decide (record.2.summaryName = name)).map Prod.fst =
      uses files name := by
  unfold records uses
  rw [List.filter_flatMap, List.map_flatMap]
  congr 1
  funext file
  have hcount : file.summaryNames.count name =
      (file.dependencies.filter
        fun dependency => decide (dependency.summaryName = name)).length := by
    rw [ResolvedFile.summaryNames, List.count, List.countP_map, List.countP_eq_length_filter]
    rfl
  rw [List.filter_map, List.map_map, hcount]
  exact List.map_const'

/-- The list of a usage has the files of the records of its name. -/
theorem usedIn_of_mem_usagesOf {usage : Usage} (h : usage ∈ usagesOf (records files)) :
    usage.usedIn = uses files usage.name := by
  obtain ⟨first, -, rfl⟩ := List.mem_map.mp h
  exact map_fst_filter_records files first.2.summaryName

/-- Sorted by the lengths of their lists, usages rank their names by these lists. -/
theorem ranksBy_mergeSort {paths : String → List String} {usages : List Usage}
    (h : ∀ usage ∈ usages, usage.usedIn = paths usage.name) :
    RanksBy paths (usages.map (·.name))
      (usages.mergeSort fun a b => decide (b.usedIn.length ≤ a.usedIn.length)) where
  usedIn := by
    intro usage husage
    exact h usage (List.mem_mergeSort.mp husage)
  ranked := by
    have hsorted :=
      List.pairwise_mergeSort (descending_trans fun usage : Usage => usage.usedIn.length)
      (descending_total fun usage : Usage => usage.usedIn.length) usages
    apply hsorted.imp_of_mem
    intro usage later husage hlater hle
    rw [← h usage (List.mem_mergeSort.mp husage), ← h later (List.mem_mergeSort.mp hlater)]
    exact of_decide_eq_true hle
  ties := by
    intro n
    have hlength : ∀ usage ∈ usages,
        decide ((paths usage.name).length = n) = decide (usage.usedIn.length = n) := by
      intro usage husage
      rw [h usage husage]
    rw [List.filter_congr fun usage husage => hlength usage (List.mem_mergeSort.mp husage),
      filter_mergeSort_key (fun usage : Usage => usage.usedIn.length), List.filter_map]
    congr 1
    apply List.filter_congr
    intro usage husage
    exact (hlength usage husage).symm

/-- The names that are ranked are those of the records. -/
theorem mem_map_name_usages {name : String} :
    name ∈ (ofFiles files).usages.map (·.name) ↔ ∃ file ∈ files, name ∈ file.summaryNames := by
  have hperm : ((ofFiles files).usages.map (·.name)).Perm (names files) := by
    rw [← map_name_usagesOf]
    exact (List.mergeSort_perm _ _).map _
  rw [hperm.mem_iff, names, mem_firsts, List.mem_flatMap]

/-- A summary ranks the names by the files of their records. -/
theorem ranksBy_uses (files : List ResolvedFile) :
    RanksBy (uses files) (names files) (ofFiles files).usages := by
  rw [← map_name_usagesOf]
  apply ranksBy_mergeSort
  intro usage husage
  exact usedIn_of_mem_usagesOf husage

end OfFiles

/-! ## Records and files -/

section Repeats

variable {files : List ResolvedFile} {name : String}

theorem uses_cons (file : ResolvedFile) (rest : List ResolvedFile) (name : String) :
    uses (file :: rest) name =
      List.replicate (file.summaryNames.count name) file.path ++ uses rest name :=
  List.flatMap_cons

theorem users_cons (file : ResolvedFile) (rest : List ResolvedFile) (name : String) :
    users (file :: rest) name =
      List.replicate (min (file.summaryNames.count name) 1) file.path ++ users rest name := by
  unfold users
  by_cases hmem : name ∈ file.summaryNames
  · have hcount : min (file.summaryNames.count name) 1 = 1 :=
      Nat.min_eq_right (List.count_pos_iff.mpr hmem)
    rw [List.filter_cons, if_pos (decide_eq_true hmem), hcount]
    rfl
  · rw [List.filter_cons, if_neg (fun h => hmem (of_decide_eq_true h)),
      List.count_eq_zero_of_not_mem hmem]
    rfl

theorem length_users_le (files : List ResolvedFile) (name : String) :
    (users files name).length ≤ (uses files name).length := by
  induction files with
  | nil => exact Nat.le_refl 0
  | cons file rest ih =>
    rw [uses_cons, users_cons, List.length_append, List.length_append, List.length_replicate,
      List.length_replicate]
    omega

/-- The files of the records of a name are the files that have one exactly if no file has two. -/
theorem uses_eq_users_iff :
    uses files name = users files name ↔ ∀ file ∈ files, file.summaryNames.count name ≤ 1 := by
  induction files with
  | nil => simp [uses, users]
  | cons file rest ih =>
    rw [uses_cons, users_cons, List.forall_mem_cons, ← ih]
    constructor
    · intro h
      -- a file with more records makes its list longer than all that follows can make up for
      have hlength := congrArg List.length h
      have hrest := length_users_le rest name
      rw [List.length_append, List.length_append, List.length_replicate,
        List.length_replicate] at hlength
      have hcount : file.summaryNames.count name ≤ 1 := by omega
      rw [Nat.min_eq_left hcount] at h
      exact ⟨hcount, List.append_cancel_left h⟩
    · rintro ⟨hcount, h⟩
      rw [Nat.min_eq_left hcount, h]

/-- The list of a name repeats no file exactly if no file has two records of it. -/
theorem nodup_uses_iff (hpaths : (files.map (·.path)).Nodup) :
    (uses files name).Nodup ↔ ∀ file ∈ files, file.summaryNames.count name ≤ 1 := by
  constructor
  · intro hnodup file hfile
    have hsublist :
        (List.replicate (file.summaryNames.count name) file.path).Sublist (uses files name) :=
      List.sublist_flatten_of_mem (List.mem_map_of_mem hfile)
    exact List.nodup_replicate.mp (hnodup.sublist hsublist)
  · intro hcount
    rw [uses_eq_users_iff.mpr hcount]
    exact hpaths.sublist (List.filter_sublist.map _)

/-- No name is repeated in a file exactly if no ranked name is. -/
theorem forall_nodup_summaryNames_iff :
    (∀ file ∈ files, file.summaryNames.Nodup) ↔
      ∀ usage ∈ (ofFiles files).usages, ∀ file ∈ files, file.summaryNames.count usage.name ≤ 1 := by
  constructor
  · intro hnodup usage _ file hfile
    exact List.nodup_iff_count_le_one.mp (hnodup file hfile) usage.name
  · intro hcount file hfile
    apply List.nodup_iff_count_le_one.mpr
    intro name
    by_cases hmem : name ∈ file.summaryNames
    · obtain ⟨usage, husage, rfl⟩ := List.mem_map.mp (mem_map_name_usages.mpr ⟨file, hfile, hmem⟩)
      exact hcount usage husage file hfile
    · rw [List.count_eq_zero_of_not_mem hmem]
      exact Nat.zero_le 1

end Repeats

/-- **What a summary ranks by.** For files with distinct paths, a summary ranks the names of the
dependencies by the files of their records: each list has the files in order, a file once for each
record, the longest lists come first, and names with equally long lists stand in the order of their
first records. The lists repeat no file, and the names are ranked by the files that use them, each
listed once, exactly if no file has two records of one name. -/
theorem ofFiles_ranks {files : List ResolvedFile} (hpaths : (files.map (·.path)).Nodup) :
    RanksBy (uses files) (names files) (ofFiles files).usages ∧
      ((∀ usage ∈ (ofFiles files).usages, usage.usedIn.Nodup) ↔
        ∀ file ∈ files, file.summaryNames.Nodup) ∧
      (RanksBy (users files) (names files) (ofFiles files).usages ↔
        ∀ file ∈ files, file.summaryNames.Nodup) := by
  have hranks := ranksBy_uses files
  refine ⟨hranks, ?_, ?_⟩
  · rw [forall_nodup_summaryNames_iff]
    apply forall₂_congr
    intro usage husage
    rw [hranks.usedIn usage husage]
    exact nodup_uses_iff hpaths
  · rw [forall_nodup_summaryNames_iff]
    constructor
    · intro husers usage husage
      apply uses_eq_users_iff.mp
      rw [← hranks.usedIn usage husage, husers.usedIn usage husage]
    · intro hcount
      have hlists : ∀ usage ∈ usagesOf (records files), usage.usedIn = users files usage.name := by
        intro usage husage
        rw [usedIn_of_mem_usagesOf husage]
        exact uses_eq_users_iff.mpr (hcount usage (List.mem_mergeSort.mpr husage))
      rw [← map_name_usagesOf]
      exact ranksBy_mergeSort hlists

/-- Two files that reach a third by different tokens. -/
def sharedTarget : Snapshot where
  tree := [.file "a.js" "a.js" none, .file "b.js" "b.js" none, .file "c.js" "c.js" none]
  contents :=
    [("a.js", "import 'react'; import './c';"), ("b.js", "import './c.js';"), ("c.js", "")]

theorem ofFiles_ranks_sharedTarget :
    let files := (sharedTarget.analyze {}).files
    (files.map (·.path)).Nodup ∧ (∀ file ∈ files, file.summaryNames.Nodup) ∧
      users files "c.js" = ["a.js", "b.js"] ∧
      RanksBy (users files) (names files) (ofFiles files).usages := by
  intro files
  obtain ⟨hpaths, hnames, husers⟩ : (files.map (·.path)).Nodup ∧
      (∀ file ∈ files, file.summaryNames.Nodup) ∧
      users files "c.js" = ["a.js", "b.js"] := by decide +kernel
  exact ⟨hpaths, hnames, husers, (ofFiles_ranks hpaths).2.2.mpr hnames⟩

/-- A file that reaches another by two tokens. -/
def reachedTwice : Snapshot where
  tree := [.file "a.js" "a.js" none, .file "b.js" "b.js" none]
  contents := [("a.js", "import 'react'; import './b'; import './b.js';"), ("b.js", "")]

/-- Each name is used by one file, but the list of one repeats the file, and this name comes before
the one that was recorded first. -/
theorem ofFiles_ranks_reachedTwice :
    let files := (reachedTwice.analyze {}).files
    (files.map (·.path)).Nodup ∧ names files = ["react", "b.js"] ∧
      users files "react" = ["a.js"] ∧ users files "b.js" = ["a.js"] ∧
      (ofFiles files).usages = [⟨"b.js", .internal, ["a.js", "a.js"]⟩,
        ⟨"react", .external, ["a.js"]⟩] ∧
      ¬ RanksBy (users files) (names files) (ofFiles files).usages := by
  intro files
  obtain ⟨hpaths, hnames, hreact, husers, hunsorted⟩ : (files.map (·.path)).Nodup ∧
      names files = ["react", "b.js"] ∧ users files "react" = ["a.js"] ∧
      users files "b.js" = ["a.js"] ∧
      usagesOf (records files) = [⟨"react", .external, ["a.js"]⟩,
        ⟨"b.js", .internal, ["a.js", "a.js"]⟩] := by
    decide +kernel
  have husages : (ofFiles files).usages =
      [⟨"b.js", .internal, ["a.js", "a.js"]⟩, ⟨"react", .external, ["a.js"]⟩] := by
    show (usagesOf (records files)).mergeSort _ = _
    rw [hunsorted]
    simp [List.mergeSort]
  refine ⟨hpaths, hnames, hreact, husers, husages, fun hranks => ?_⟩
  have husedIn := hranks.usedIn ⟨"b.js", .internal, ["a.js", "a.js"]⟩ (husages ▸ List.mem_cons_self)
  rw [husers] at husedIn
  cases husedIn

end Summary

end ImportChart
