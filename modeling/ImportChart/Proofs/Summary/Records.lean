import ImportChart.Proofs.Summary
import Mathlib.Algebra.GroupWithZero.Nat
import Mathlib.Data.List.Induction

/-!
# The records behind a summary

A summary groups the records of its files by their names, sorts the groups and counts them. Here the
groups are made one record at a time (`Summary.addRecord`): a record adds its file to the usage of
its name, and opens a usage at the end if the name is new. Each step keeps one use for each record
and nothing more (`Summary.Holds.addRecord`), so the usages of a list of records hold exactly these
(`Summary.holds_usagesOf`).

What is left is to sort them and to count the origins, which moves and counts every usage once
(`Summary.accounts_ofFiles`). Nothing is asked of the files here: they may share paths, and reach a
name by several records.
-/

namespace ImportChart

/-- A list is another one sorted by a number, the largest first, and those with one number stand in
their order. -/
structure SortsBy (key : α → Nat) (sorted xs : List α) : Prop where
  perm : sorted.Perm xs
  descending : sorted.Pairwise fun a later => key later ≤ key a
  ties : ∀ n, sorted.filter (fun a => decide (key a = n)) = xs.filter fun a => decide (key a = n)

theorem sortsBy_mergeSort {α : Type} (key : α → Nat) (xs : List α) :
    SortsBy key (xs.mergeSort fun a b => decide (key b ≤ key a)) xs where
  perm := List.mergeSort_perm _ _
  descending := by
    apply (List.pairwise_mergeSort (descending_trans key) (descending_total key) xs).imp
    intro a later hle
    exact of_decide_eq_true hle
  ties := filter_mergeSort_key key xs

namespace Summary

/-! ## One record after another -/

/-- The name and the path of a record. -/
def useOf (record : String × Dependency) : String × String :=
  (record.2.summaryName, record.1)

/-- The uses that usages list, each by its name and its path. -/
def usesOf (usages : List Usage) : List (String × String) :=
  usages.flatMap fun usage => usage.usedIn.map fun path => (usage.name, path)

/-- Usages with one more record: its path comes last in the usage of its name, and a name without a
usage has one opened at the end. -/
def addRecord (usages : List Usage) (record : String × Dependency) : List Usage :=
  match usages with
  | [] => [{ name := record.2.summaryName, origin := record.2.origin, usedIn := [record.1] }]
  | usage :: rest =>
    if usage.name = record.2.summaryName then
      { usage with usedIn := usage.usedIn ++ [record.1] } :: rest
    else usage :: addRecord rest record

section Records

variable {usages : List Usage} {records : List (String × Dependency)} {record : String × Dependency}

theorem addRecord_of_new (h : record.2.summaryName ∉ usages.map (·.name)) :
    addRecord usages record =
      usages ++
        [{ name := record.2.summaryName, origin := record.2.origin, usedIn := [record.1] }] := by
  induction usages with
  | nil => rfl
  | cons usage rest ih =>
    rw [List.map_cons, List.mem_cons, not_or] at h
    rw [addRecord, if_neg (Ne.symm h.1), ih h.2]
    rfl

/-- Where no two usages share a name, a record changes the one of its name and no other. -/
theorem addRecord_of_mem (hnodup : (usages.map (·.name)).Nodup)
    (h : record.2.summaryName ∈ usages.map (·.name)) :
    addRecord usages record = usages.map fun usage =>
      if usage.name = record.2.summaryName then
        { usage with usedIn := usage.usedIn ++ [record.1] }
      else usage := by
  induction usages with
  | nil => exact absurd h List.not_mem_nil
  | cons usage rest ih =>
    obtain ⟨hunique, hrest⟩ := List.nodup_cons.mp hnodup
    rw [addRecord, List.map_cons]
    by_cases hname : usage.name = record.2.summaryName
    · have hothers : ∀ other ∈ rest,
          (if other.name = record.2.summaryName then
            { other with usedIn := other.usedIn ++ [record.1] } else other) =
            other := by
        intro other hother
        apply if_neg
        intro heq
        exact hunique (List.mem_map.mpr ⟨other, hother, heq.trans hname.symm⟩)
      rw [if_pos hname, if_pos hname, List.map_congr_left hothers, List.map_id']
    · rw [if_neg hname, if_neg hname, ih hrest ((List.mem_cons.mp h).resolve_left (Ne.symm hname))]

/-- A record is one more use, of its own name and path. -/
theorem usesOf_addRecord (usages : List Usage) (record : String × Dependency) :
    (usesOf (addRecord usages record)).Perm (usesOf usages ++ [useOf record]) := by
  induction usages with
  | nil => exact .refl _
  | cons usage rest ih =>
    unfold usesOf at ih ⊢
    rw [addRecord]
    split
    · next hname =>
      rw [List.flatMap_cons, List.flatMap_cons, List.map_append, List.append_assoc,
        List.append_assoc]
      apply List.Perm.append_left
      show ([(usage.name, record.1)] ++ _).Perm _
      rw [hname]
      exact List.perm_append_comm
    · rw [List.flatMap_cons, List.flatMap_cons, List.append_assoc]
      exact ih.append_left _

/-! ## What usages hold -/

/-- Usages hold records: they have their names, in the order of the first records, each with the
origin of its first record, and list a use for each record. -/
structure Holds (usages : List Usage) (records : List (String × Dependency)) : Prop where
  names : usages.map (·.name) = firsts (records.map fun record => record.2.summaryName)
  origins : ∀ usage ∈ usages, ∃ first,
    records.find? (fun record => decide (record.2.summaryName = usage.name)) = some first ∧
      usage.origin = first.2.origin
  uses : (usesOf usages).Perm (records.map useOf)

namespace Holds

theorem nil : Holds [] [] where
  names := rfl
  origins := fun _ h => absurd h List.not_mem_nil
  uses := .refl _

theorem nodup_names (h : Holds usages records) : (usages.map (·.name)).Nodup :=
  h.names ▸ nodup_firsts _

theorem mem_names (h : Holds usages records) {name : String} :
    name ∈ usages.map (·.name) ↔ name ∈ records.map fun record => record.2.summaryName := by
  rw [h.names, mem_firsts]

theorem find?_eq_none (h : Holds usages records) {name : String}
    (hnew : name ∉ usages.map (·.name)) :
    records.find? (fun record => decide (record.2.summaryName = name)) = none := by
  apply List.find?_eq_none.mpr
  intro other hother htrue
  apply hnew
  rw [h.mem_names, ← of_decide_eq_true htrue]
  exact List.mem_map_of_mem hother

/-- A record of a name that has a usage. -/
theorem addRecord_of_mem (h : Holds usages records)
    (hmem : record.2.summaryName ∈ usages.map (·.name)) :
    Holds (addRecord usages record) (records ++ [record]) where
  names := by
    have hold := h.mem_names.mp hmem
    rw [Summary.addRecord_of_mem h.nodup_names hmem, List.map_map, List.map_append]
    refine Eq.trans ?_ (h.names.trans (firstsBy_concat_of_old hold rfl).symm)
    apply List.map_congr_left
    intro usage _
    rw [Function.comp_apply]
    split <;> rfl
  origins := by
    rw [Summary.addRecord_of_mem h.nodup_names hmem]
    intro usage husage
    obtain ⟨old, hold, rfl⟩ := List.mem_map.mp husage
    obtain ⟨first, hfirst, horigin⟩ := h.origins old hold
    refine ⟨first, ?_, ?_⟩
    · rw [List.find?_append]
      split <;> rw [hfirst] <;> rfl
    · split <;> exact horigin
  uses := by
    rw [List.map_append]
    exact (usesOf_addRecord usages record).trans (h.uses.append_right _)

/-- A record of a name that has no usage. -/
theorem addRecord_of_new (h : Holds usages records)
    (hnew : record.2.summaryName ∉ usages.map (·.name)) :
    Holds (addRecord usages record) (records ++ [record]) where
  names := by
    have hfirsts :
        firsts (records.map (fun record => record.2.summaryName) ++ [record.2.summaryName]) =
        firsts (records.map fun record => record.2.summaryName) ++ [record.2.summaryName] := by
      apply firstsBy_concat_of_new
      rintro name hname rfl
      exact hnew (h.mem_names.mpr hname)
    rw [Summary.addRecord_of_new hnew, List.map_append, h.names, List.map_append]
    exact hfirsts.symm
  origins := by
    rw [Summary.addRecord_of_new hnew]
    intro usage husage
    rw [List.find?_append]
    rcases List.mem_append.mp husage with hold | hopened
    · obtain ⟨first, hfirst, horigin⟩ := h.origins usage hold
      exact ⟨first, by rw [hfirst]; rfl, horigin⟩
    · obtain rfl := List.mem_singleton.mp hopened
      refine ⟨record, ?_, rfl⟩
      rw [h.find?_eq_none hnew, Option.none_or]
      exact List.find?_cons_of_pos (decide_eq_true rfl)
  uses := by
    rw [List.map_append]
    exact (usesOf_addRecord usages record).trans (h.uses.append_right _)

/-- One more record is held by one more step. -/
theorem addRecord (h : Holds usages records) (record : String × Dependency) :
    Holds (Summary.addRecord usages record) (records ++ [record]) := by
  by_cases hmem : record.2.summaryName ∈ usages.map (·.name)
  · exact h.addRecord_of_mem hmem
  · exact h.addRecord_of_new hmem

end Holds

/-- The usages made of records one after another hold them. -/
theorem holds_foldl (records : List (String × Dependency)) :
    Holds (records.foldl addRecord []) records := by
  induction records using List.reverseRecOn with
  | nil => exact .nil
  | append_singleton records record ih =>
    rw [List.foldl_concat]
    exact ih.addRecord record

/-! ## Grouping at once -/

/-- The usage of the name of a record among records. -/
def usageOf (records : List (String × Dependency)) (first : String × Dependency) : Usage where
  name := first.2.summaryName
  origin := first.2.origin
  usedIn := (records.filter fun record => record.2.summaryName = first.2.summaryName).map Prod.fst

theorem usagesOf_eq_map (records : List (String × Dependency)) :
    usagesOf records = (firstsBy (fun record => record.2.summaryName) records).map
      (usageOf records) := rfl

/-- One more record is one more use in the usage of its name. -/
theorem usageOf_concat (records : List (String × Dependency)) (record first : String × Dependency) :
    usageOf (records ++ [record]) first =
      if first.2.summaryName = record.2.summaryName then
        { usageOf records first with usedIn := (usageOf records first).usedIn ++ [record.1] }
      else usageOf records first := by
  unfold usageOf
  rw [List.filter_append, List.map_append]
  by_cases hname : first.2.summaryName = record.2.summaryName
  · simp only [hname, if_true, decide_true, List.filter_cons, List.filter_nil, List.map_cons,
      List.map_nil]
  · simp only [hname, Ne.symm hname, if_false, decide_false, Bool.false_eq_true, List.filter_cons,
      List.filter_nil, List.map_nil, List.append_nil]

/-- The usage of a name that is new among records. -/
theorem usageOf_concat_self (h : record.2.summaryName ∉ records.map fun record =>
    record.2.summaryName) :
    usageOf (records ++ [record]) record =
      { name := record.2.summaryName, origin := record.2.origin, usedIn := [record.1] } := by
  have hnone :
      records.filter (fun earlier => earlier.2.summaryName = record.2.summaryName) = [] := by
    apply List.filter_eq_nil_iff.mpr
    intro earlier hearlier htrue
    exact h (List.mem_map.mpr ⟨earlier, hearlier, of_decide_eq_true htrue⟩)
  rw [usageOf_concat, if_pos rfl, usageOf, hnone]
  rfl

/-- Records with one more are grouped as the others, and one more step. -/
theorem usagesOf_concat (records : List (String × Dependency)) (record : String × Dependency) :
    usagesOf (records ++ [record]) = addRecord (usagesOf records) record := by
  have hnames := map_name_usagesOf_eq_firsts records
  by_cases hold : record.2.summaryName ∈ records.map fun record => record.2.summaryName
  · obtain ⟨earlier, hearlier, hname⟩ := List.mem_map.mp hold
    have hnodup : ((usagesOf records).map (·.name)).Nodup := hnames ▸ nodup_firsts _
    have hmem : record.2.summaryName ∈ (usagesOf records).map (·.name) :=
      hnames ▸ mem_firsts.mpr hold
    rw [addRecord_of_mem hnodup hmem, usagesOf_eq_map, usagesOf_eq_map,
      firstsBy_concat_of_old hearlier hname, List.map_map]
    apply List.map_congr_left
    intro first _
    exact usageOf_concat records record first
  · have hnew : record.2.summaryName ∉ (usagesOf records).map (·.name) := by
      rwa [hnames, mem_firsts]
    have hothers : ∀ earlier ∈ records, earlier.2.summaryName ≠ record.2.summaryName := by
      intro earlier hearlier heq
      exact hold (List.mem_map.mpr ⟨earlier, hearlier, heq⟩)
    rw [addRecord_of_new hnew, usagesOf_eq_map, usagesOf_eq_map, firstsBy_concat_of_new hothers,
      List.map_append, List.map_singleton, usageOf_concat_self hold]
    congr 1
    apply List.map_congr_left
    intro first hfirst
    rw [usageOf_concat, if_neg (hothers first ((firstsBy_sublist records).mem hfirst))]

/-- The usages of records are made of them one after another. -/
theorem usagesOf_eq_foldl (records : List (String × Dependency)) :
    usagesOf records = records.foldl addRecord [] := by
  induction records using List.reverseRecOn with
  | nil => rfl
  | append_singleton records record ih => rw [usagesOf_concat, List.foldl_concat, ih]

theorem holds_usagesOf (records : List (String × Dependency)) :
    Holds (usagesOf records) records := by
  rw [usagesOf_eq_foldl]
  exact holds_foldl records

/-! ## Counting -/

/-- As many uses are listed as the lists of the usages are long. -/
theorem length_usesOf (usages : List Usage) :
    (usesOf usages).length = (usages.map fun usage => usage.usedIn.length).sum := by
  unfold usesOf
  rw [List.length_flatMap]
  simp only [List.length_map]

theorem Holds.length_uses (h : Holds usages records) :
    (usages.map fun usage => usage.usedIn.length).sum = records.length := by
  rw [← length_usesOf, h.uses.length_eq, List.length_map]

/-- Every usage is of one of three origins. -/
theorem countP_origin_add (usages : List Usage) :
    usages.countP (fun usage => usage.origin = .internal) + usages.countP (fun usage =>
      usage.origin = .external) +
      usages.countP (fun usage => usage.origin = .builtin) = usages.length := by
  induction usages with
  | nil => rfl
  | cons usage rest ih =>
    simp only [List.length_cons, ← ih, List.countP_cons, decide_eq_true_eq]
    cases usage.origin with
    | internal => simp only [if_true, reduceCtorEq, if_false]; omega
    | external => simp only [if_true, reduceCtorEq, if_false]; omega
    | builtin => simp only [if_true, reduceCtorEq, if_false]; omega

end Records

/-! ## The account of a summary -/

/-- A summary accounts for the records of files: each is counted once and is listed once as a use of
its name. -/
structure Accounts (summary : Summary) (files : List ResolvedFile) : Prop where
  totalImports : summary.totalImports = (files.map fun file => file.dependencies.length).sum
  totalUses : (summary.usages.map fun usage => usage.usedIn.length).sum = summary.totalImports
  uses : (usesOf summary.usages).Perm
    (files.flatMap fun file => file.dependencies.map fun dependency =>
      (dependency.summaryName, file.path))
  nodup_names : (summary.usages.map (·.name)).Nodup
  /-- The names are the targets of the dependencies, and the tokens of those that lead nowhere. -/
  mem_names : ∀ name, name ∈ summary.usages.map (·.name) ↔
    ∃ file ∈ files, ∃ dependency ∈ file.dependencies,
    dependency.target?.getD dependency.token = name
  /-- The origin of a usage is that of the first dependency of its name. -/
  origins : ∀ usage ∈ summary.usages, ∃ first,
    (files.flatMap (·.dependencies)).find?
      (fun dependency => dependency.summaryName = usage.name) = some first ∧
      usage.origin = first.origin
  /-- The usages are those made of the records one after another, the longest first. -/
  sorted :
    SortsBy (fun usage => usage.usedIn.length) summary.usages ((records files).foldl addRecord [])
  names_seen : ((records files).foldl addRecord []).map (·.name) = names files
  counts : summary.countOf .internal + summary.countOf .external + summary.countOf .builtin =
    summary.totalDependencies
  totalDependencies : summary.totalDependencies = summary.usages.length

section Files

variable (files : List ResolvedFile)

theorem length_records :
    (records files).length = (files.map fun file => file.dependencies.length).sum := by
  unfold records
  rw [List.length_flatMap]
  simp only [List.length_map]

theorem map_useOf_records : (records files).map useOf =
    files.flatMap fun file => file.dependencies.map fun dependency =>
      (dependency.summaryName, file.path) := by
  unfold records
  rw [List.map_flatMap]
  simp only [List.map_map]
  rfl

theorem map_snd_records : (records files).map Prod.snd = files.flatMap (·.dependencies) := by
  unfold records
  rw [List.map_flatMap]
  simp only [List.map_map, Function.comp_def, List.map_id']

/-- The first record of a name is of the first dependency of the name. -/
theorem find?_records (name : String) :
    ((records files).find? fun record => decide (record.2.summaryName = name)).map Prod.snd =
      (files.flatMap (·.dependencies)).find? fun dependency =>
        decide (dependency.summaryName = name) := by
  rw [← map_snd_records, List.find?_map]
  rfl

/-- The usages of a summary are those of the records, sorted. -/
theorem sortsBy_usages :
    SortsBy (fun usage => usage.usedIn.length) (ofFiles files).usages (usagesOf (records files)) :=
  sortsBy_mergeSort _ _

/-- **A summary neither loses nor invents a record**, whatever names its files share. -/
theorem accounts_ofFiles : (ofFiles files).Accounts files := by
  have hholds := holds_usagesOf (records files)
  have hsorted := sortsBy_usages files
  have hperm := hsorted.perm
  constructor
  · exact length_records files
  · exact (hperm.map _).sum_nat.trans hholds.length_uses
  · rw [← map_useOf_records]
    exact (hperm.flatMap_right _).trans hholds.uses
  · exact (hperm.map _).nodup_iff.mpr hholds.nodup_names
  · intro name
    rw [mem_map_name_usages]
    simp only [ResolvedFile.summaryNames, List.mem_map, Dependency.summaryName]
  · intro usage husage
    obtain ⟨first, hfirst, horigin⟩ := hholds.origins usage (hperm.mem_iff.mp husage)
    refine ⟨first.2, ?_, horigin⟩
    rw [← find?_records, hfirst, Option.map_some]
  · rw [← usagesOf_eq_foldl]
    exact hsorted
  · rw [← usagesOf_eq_foldl]
    exact map_name_usagesOf files
  · exact countP_origin_add _
  · rfl

end Files

end Summary

end ImportChart
