import ImportChart.Graph.Listing
import Mathlib.Data.List.Nodup

/-!
# What a listing is made of

A listing is built in two rounds, first a name for each file and then the targets of each file. Here
both are read off the files. The names are the first occurrences of the paths and the targets, in
this order (`Listing.lists_ofFiles`), and what is listed under a name are the targets of the files
with that path, each once (`Listing.targetsOf_ofFiles`).

`Listing.Lists` keeps what has been met while a listing is built, as a list that only grows at its
end. The nodes and the lists of targets have the same names throughout. What kind a node has is told
by an invariant: whatever holds of each file and of what each dependency leads to, as they would be
added, holds of every node (`Listing.forall_nodes_ofFiles`).
-/

namespace ImportChart

namespace Table

variable [DecidableEq κ] {table more : Table κ α} {key : κ}

theorem get?_eq_none (h : key ∉ table.keys) : table.get? key = none := by
  induction table with
  | nil => rfl
  | cons entry rest ih =>
    rw [keys, List.map_cons, List.mem_cons, not_or] at h
    rw [get?, if_neg (Ne.symm h.1)]
    exact ih h.2

theorem exists_get?_eq_some (h : key ∈ table.keys) : ∃ value, table.get? key = some value := by
  induction table with
  | nil => exact absurd h List.not_mem_nil
  | cons entry rest ih =>
    rw [get?]
    split
    · exact ⟨_, rfl⟩
    · next hne =>
      exact ih ((List.mem_cons.mp h).resolve_left (Ne.symm hne))

/-- Values changed in their places are found changed. -/
theorem get?_mapValues (f : κ → α → β) :
    get? (table.map fun entry => (entry.1, f entry.1 entry.2)) key =
      (table.get? key).map (f key) := by
  induction table with
  | nil => rfl
  | cons entry rest ih =>
    rw [List.map_cons, get?, get?]
    split
    · next hkey =>
      rw [hkey, Option.map_some]
    · exact ih

/-- A table is searched before what stands behind it. -/
theorem get?_append : get? (table ++ more) key = (table.get? key).or (more.get? key) := by
  induction table with
  | nil => rfl
  | cons entry rest ih =>
    rw [List.cons_append, get?, get?, ih]
    split <;> rfl

end Table

/-- The targets of a file's dependencies, in order. -/
def ResolvedFile.targets (file : ResolvedFile) : List String :=
  file.dependencies.filterMap Dependency.target?

namespace Listing

/-- What is listed under a name; nothing under a name that is not there. -/
def targetsOf (listing : Listing) (name : String) : List String :=
  (listing.targets.get? name).getD []

/-- The names of a listing are those that were met, each once, for its nodes and its lists of
targets. -/
structure Lists (listing : Listing) (met : List String) : Prop where
  nodes : listing.nodes.map Prod.fst = firsts met
  keys : listing.targets.keys = firsts met

variable {listing : Listing} {met : List String}

/-! ## Names -/

namespace Lists

theorem empty : Lists .empty [] :=
  ⟨rfl, rfl⟩

theorem mem_keys (h : listing.Lists met) {name : String} :
    name ∈ listing.targets.keys ↔ name ∈ met := by
  rw [h.keys, mem_firsts]

theorem addNode (h : listing.Lists met) (name : String) (kind : ListingKind) :
    (listing.addNode name kind).Lists (met ++ [name]) := by
  rw [Listing.addNode]
  by_cases hmem : name ∈ met
  · have hfirsts : firsts (met ++ [name]) = firsts met := firstsBy_concat_of_old hmem rfl
    rw [if_pos (h.mem_keys.mpr hmem)]
    exact ⟨h.nodes.trans hfirsts.symm, h.keys.trans hfirsts.symm⟩
  · have hnew : ∀ other ∈ met, id other ≠ id name := by
      rintro other hother rfl
      exact hmem hother
    have hfirsts : firsts (met ++ [name]) = firsts met ++ [name] := firstsBy_concat_of_new hnew
    rw [if_neg (h.mem_keys.not.mpr hmem)]
    constructor
    · rw [List.map_append, h.nodes, hfirsts]
      rfl
    · rw [Table.keys, List.map_append, hfirsts, ← h.keys]
      rfl

theorem addTargets (h : listing.Lists met) (name : String) (more : List String) :
    (listing.addTargets name more).Lists met := by
  refine ⟨h.nodes, ?_⟩
  rw [← h.keys, Listing.addTargets, Table.keys, List.map_map]
  refine List.map_congr_left fun entry _ => ?_
  rw [Function.comp_apply]
  split <;> rfl

theorem addTarget (h : listing.Lists met) (dependency : Dependency) :
    (listing.addTarget dependency).Lists (met ++ dependency.target?.toList) := by
  rw [Listing.addTarget]
  cases dependency.target? with
  | none => simpa using h
  | some target => exact h.addNode target _

theorem foldl_addTarget (h : listing.Lists met) (dependencies : List Dependency) :
    (dependencies.foldl Listing.addTarget listing).Lists
      (met ++ dependencies.filterMap Dependency.target?) := by
  induction dependencies generalizing listing met with
  | nil => simpa using h
  | cons dependency rest ih =>
    have hrest := ih (h.addTarget dependency)
    rw [List.filterMap_eq_flatMap_toList] at hrest ⊢
    rw [List.foldl_cons, List.flatMap_cons, ← List.append_assoc]
    exact hrest

theorem addFile (h : listing.Lists met) (file : ResolvedFile) :
    (listing.addFile file).Lists (met ++ file.targets) :=
  (h.foldl_addTarget file.dependencies).addTargets _ _

theorem foldl_addFile (h : listing.Lists met) (files : List ResolvedFile) :
    (files.foldl Listing.addFile listing).Lists (met ++ files.flatMap ResolvedFile.targets) := by
  induction files generalizing listing met with
  | nil => simpa using h
  | cons file rest ih =>
    rw [List.foldl_cons, List.flatMap_cons, ← List.append_assoc]
    exact ih (h.addFile file)

theorem foldl_addNode (h : listing.Lists met) (files : List ResolvedFile) :
    (files.foldl (fun listing file => listing.addNode file.path .file) listing).Lists
      (met ++ files.map ResolvedFile.path) := by
  induction files generalizing listing met with
  | nil => simpa using h
  | cons file rest ih =>
    have hrest := ih (h.addNode file.path .file)
    rw [List.append_assoc] at hrest
    exact hrest

end Lists

/-- The names of the listing of files: their paths, and behind them their targets. -/
theorem lists_ofFiles (files : List ResolvedFile) :
    (ofFiles files).Lists (files.map ResolvedFile.path ++ files.flatMap ResolvedFile.targets) :=
  (Lists.empty.foldl_addNode files).foldl_addFile files

/-! ## Nodes -/

section Nodes

variable {P : String × ListingKind → Prop}

/-- A name added brings one node at most. -/
theorem forall_nodes_addNode (h : ∀ node ∈ listing.nodes, P node) {name : String}
    {kind : ListingKind} (hnew : P (name, kind)) :
    ∀ node ∈ (listing.addNode name kind).nodes, P node := by
  intro node hnode
  rw [addNode] at hnode
  split at hnode
  · exact h node hnode
  · rcases List.mem_append.mp hnode with hnode | hnode
    · exact h node hnode
    · exact List.mem_singleton.mp hnode ▸ hnew

/-- The files of a listing come first, each with the kind of a file. -/
theorem forall_nodes_foldl_addNode (h : ∀ node ∈ listing.nodes, P node) {files : List ResolvedFile}
    (hpath : ∀ file ∈ files, P (file.path, .file)) :
    ∀ node ∈ (files.foldl (fun listing file => listing.addNode file.path .file) listing).nodes,
    P node := by
  induction files generalizing listing with
  | nil => exact h
  | cons file rest ih =>
    exact ih (forall_nodes_addNode h (hpath file List.mem_cons_self)) fun other hother =>
      hpath other (List.mem_cons_of_mem _ hother)

/-- Dependencies bring nodes for what they lead to, with the kinds of their origins. -/
theorem forall_nodes_foldl_addTarget (h : ∀ node ∈ listing.nodes, P node)
    {dependencies : List Dependency}
    (htarget : ∀ dependency ∈ dependencies, ∀ target, dependency.target? = some target →
      P (target, .ofOrigin dependency.origin)) :
    ∀ node ∈ (dependencies.foldl addTarget listing).nodes, P node := by
  induction dependencies generalizing listing with
  | nil => exact h
  | cons dependency rest ih =>
    refine ih ?_ fun other hother => htarget other (List.mem_cons_of_mem _ hother)
    rw [addTarget]
    split
    · exact h
    · next target hsome =>
      exact forall_nodes_addNode h (htarget dependency List.mem_cons_self target hsome)

theorem forall_nodes_foldl_addFile (h : ∀ node ∈ listing.nodes, P node) {files : List ResolvedFile}
    (htarget : ∀ file ∈ files, ∀ dependency ∈ file.dependencies, ∀ target,
      dependency.target? = some target →
      P (target, .ofOrigin dependency.origin)) :
    ∀ node ∈ (files.foldl addFile listing).nodes, P node := by
  induction files generalizing listing with
  | nil => exact h
  | cons file rest ih =>
    exact ih (forall_nodes_foldl_addTarget h (htarget file List.mem_cons_self)) fun other hother =>
      htarget other (List.mem_cons_of_mem _ hother)

/-- What holds of the files and of what their dependencies lead to holds of the nodes of a
listing. -/
theorem forall_nodes_ofFiles {files : List ResolvedFile}
    (hpath : ∀ file ∈ files, P (file.path, .file))
    (htarget : ∀ file ∈ files, ∀ dependency ∈ file.dependencies, ∀ target,
      dependency.target? = some target →
      P (target, .ofOrigin dependency.origin)) :
    ∀ node ∈ (ofFiles files).nodes, P node := by
  have hempty : ∀ node ∈ empty.nodes, P node := fun _ hnode => absurd hnode List.not_mem_nil
  exact forall_nodes_foldl_addFile (forall_nodes_foldl_addNode hempty hpath) htarget

end Nodes

/-! ## Targets -/

theorem get?_eq_some_targetsOf {name : String} (h : name ∈ listing.targets.keys) :
    listing.targets.get? name = some (listing.targetsOf name) := by
  obtain ⟨value, hvalue⟩ := Table.exists_get?_eq_some h
  rw [targetsOf, hvalue]
  rfl

/-- A new name has no targets, and no other name sees it. -/
@[simp] theorem targetsOf_addNode (name other : String) (kind : ListingKind) :
    (listing.addNode name kind).targetsOf other = listing.targetsOf other := by
  rw [addNode]
  split
  · rfl
  · next hnew =>
    rw [targetsOf, targetsOf, Table.get?_append]
    by_cases hother : name = other
    · subst hother
      rw [Table.get?_eq_none hnew, Option.none_or, Table.get?, if_pos rfl]
      rfl
    · rw [Table.get?, if_neg hother, Table.get?_nil, Option.or_none]

/-- Targets added under a name are seen by this name alone. -/
theorem targetsOf_addTargets {name : String} (h : name ∈ listing.targets.keys) (more : List String)
    (other : String) : (listing.addTargets name more).targetsOf other =
      listing.targetsOf other ++ if name = other then more else [] := by
  have hvalues : (listing.addTargets name more).targets =
      listing.targets.map fun entry =>
        (entry.1, if entry.1 = name then entry.2 ++ more else entry.2) := by
    refine List.map_congr_left fun entry _ => ?_
    split <;> rfl
  rw [targetsOf, targetsOf, hvalues,
    Table.get?_mapValues fun key value => if key = name then value ++ more else value]
  by_cases hother : name = other
  · subst hother
    obtain ⟨value, hvalue⟩ := Table.exists_get?_eq_some h
    rw [hvalue, Option.map_some, if_pos rfl, if_pos rfl]
    rfl
  · simp only [if_neg hother, if_neg (Ne.symm hother), List.append_nil, Option.map_id']

theorem targetsOf_foldl_addTarget (dependencies : List Dependency) (name : String) :
    (dependencies.foldl addTarget listing).targetsOf name = listing.targetsOf name := by
  induction dependencies generalizing listing with
  | nil => rfl
  | cons dependency rest ih =>
    rw [List.foldl_cons, ih, addTarget]
    cases dependency.target? with
    | none => rfl
    | some target => exact targetsOf_addNode target name _

theorem targetsOf_foldl_addNode (files : List ResolvedFile) (name : String) :
    (files.foldl (fun listing file => listing.addNode file.path .file) listing).targetsOf name =
      listing.targetsOf name := by
  induction files generalizing listing with
  | nil => rfl
  | cons file rest ih => rw [List.foldl_cons, ih, targetsOf_addNode]

/-- A file that has a name adds its targets under it, each once. -/
theorem targetsOf_addFile (h : listing.Lists met) {file : ResolvedFile} (hfile : file.path ∈ met)
    (name : String) : (listing.addFile file).targetsOf name =
      listing.targetsOf name ++ if file.path = name then firsts file.targets else [] := by
  have hnamed : file.path ∈ (file.dependencies.foldl addTarget listing).targets.keys :=
    (h.foldl_addTarget file.dependencies).mem_keys.mpr (List.mem_append_left _ hfile)
  rw [addFile, targetsOf_addTargets hnamed, targetsOf_foldl_addTarget]
  rfl

/-- Files that have names add their targets under them, file after file. -/
theorem targetsOf_foldl_addFile (h : listing.Lists met) {files : List ResolvedFile}
    (hfiles : ∀ file ∈ files, file.path ∈ met) (name : String) :
    (files.foldl addFile listing).targetsOf name = listing.targetsOf name ++
      (files.filter fun file => file.path = name).flatMap fun file => firsts file.targets := by
  induction files generalizing listing met with
  | nil => exact (List.append_nil _).symm
  | cons file rest ih =>
    have hrest : ∀ other ∈ rest, other.path ∈ met ++ file.targets := fun other hother =>
      List.mem_append_left _ (hfiles other (List.mem_cons_of_mem _ hother))
    rw [List.foldl_cons, ih (h.addFile file) hrest,
      targetsOf_addFile h (hfiles file List.mem_cons_self), List.filter_cons, List.append_assoc]
    by_cases hname : file.path = name
    · simp only [hname, if_true, decide_true, List.flatMap_cons]
    · simp only [hname, if_false, decide_false, Bool.false_eq_true, List.nil_append]

/-- What the listing of files has under a name: the targets of each file with that path, each
once. -/
theorem targetsOf_ofFiles (files : List ResolvedFile) (name : String) :
    (ofFiles files).targetsOf name =
      (files.filter fun file => file.path = name).flatMap fun file => firsts file.targets := by
  have hnamed := Lists.empty.foldl_addNode files
  have hfiles : ∀ file ∈ files, file.path ∈ [] ++ files.map ResolvedFile.path := fun file hfile =>
    List.mem_map_of_mem hfile
  rw [ofFiles, targetsOf_foldl_addFile hnamed hfiles, targetsOf_foldl_addNode]
  rfl

end Listing

end ImportChart
