import ImportChart.Proofs.Analysis.Account
import ImportChart.Proofs.Graph.Successors

/-!
# Well-formed listings

A listing keeps its nodes apart from the lists of targets, and fills the lists in a second round,
through a search that does nothing where a name is missing. For files with distinct paths the two
stay in step (`Listing.wellFormed_ofFiles`): they have the same names in the same order, the files
first; whatever is listed has a name of its own, and is listed once under a file; and nothing is
listed under a package, not even under one whose token another file has for its path.

Nodes are only ever added at the end (`Listing.prefix_foldl`), so a name keeps the kind it is first
met with, and a path is first met as a file. Files that share a path would share one list, with
their targets twice; that is why distinct paths are asked for.
-/

namespace ImportChart

/-- A dependency that leads nowhere is an internal one without a path. -/
theorem Dependency.target?_eq_none_iff {dependency : Dependency} :
    dependency.target? = none ↔ dependency.isUnresolved = true := by
  unfold target? isUnresolved
  rw [decide_eq_true_eq]
  by_cases horigin : dependency.origin = .internal
  · rw [if_pos horigin, and_iff_right horigin]
  · rw [if_neg horigin]
    exact iff_of_false (Option.some_ne_none _) fun h => horigin h.1

/-- A file without its unresolved dependencies. -/
def ResolvedFile.resolvedPart (file : ResolvedFile) : ResolvedFile :=
  { file with dependencies := file.dependencies.filter fun dependency => !dependency.isUnresolved }

namespace Listing

variable {files : List ResolvedFile}

/-- A listing of files is well formed. -/
structure WellFormed (listing : Listing) (files : List ResolvedFile) : Prop where
  /-- The nodes and the lists of targets have the same names, in the same order. -/
  keys_eq : listing.targets.keys = listing.nodes.map Prod.fst
  nodup_names : (listing.nodes.map Prod.fst).Nodup
  /-- The files come first, in their order. -/
  files_first : files.map (fun file => (file.path, ListingKind.file)) <+: listing.nodes
  targets_mem : ∀ entry ∈ listing.targets, ∀ target ∈ entry.2, target ∈ listing.nodes.map Prod.fst
  targets_nodup : ∀ entry ∈ listing.targets, entry.2.Nodup
  /-- Nothing is listed under a package. -/
  targets_foreign : ∀ node ∈ listing.nodes, node.2 ≠ .file → listing.targets.get? node.1 = some []

/-! ## Nodes come at the end -/

theorem prefix_addNode (listing : Listing) (name : String) (kind : ListingKind) :
    listing.nodes <+: (listing.addNode name kind).nodes := by
  unfold addNode
  split
  · exact List.prefix_rfl
  · exact List.prefix_append _ _

theorem prefix_addTarget (listing : Listing) (dependency : Dependency) :
    listing.nodes <+: (listing.addTarget dependency).nodes := by
  unfold addTarget
  split
  · exact List.prefix_rfl
  · exact prefix_addNode _ _ _

/-- What adds nodes at the end in each step adds them at the end of a run. -/
theorem prefix_foldl {step : Listing → α → Listing}
    (hstep : ∀ listing a, listing.nodes <+: (step listing a).nodes)
    (listing : Listing) (items : List α) :
    listing.nodes <+: (items.foldl step listing).nodes := by
  induction items generalizing listing with
  | nil => exact List.prefix_rfl
  | cons a rest ih => exact (hstep listing a).trans (ih (step listing a))

theorem prefix_addFile (listing : Listing) (file : ResolvedFile) :
    listing.nodes <+: (listing.addFile file).nodes :=
  prefix_foldl prefix_addTarget listing file.dependencies

/-- The first round lists the files alone. -/
theorem nodes_foldl_addNode (h : (files.map ResolvedFile.path).Nodup) :
    (files.foldl (fun listing file => listing.addNode file.path .file) empty).nodes =
      files.map fun file => (file.path, .file) := by
  have hnames := (Lists.empty.foldl_addNode files).nodes
  rw [List.nil_append, firsts_of_nodup h] at hnames
  generalize hlisting :
    files.foldl (fun listing file => listing.addNode file.path .file) empty = listing at hnames ⊢
  have hkinds : ∀ node ∈ listing.nodes, (node.1, ListingKind.file) = node := by
    rw [← hlisting]
    apply forall_nodes_foldl_addNode
    · exact fun _ hnode => absurd hnode List.not_mem_nil
    · exact fun _ _ => rfl
  calc listing.nodes
      = listing.nodes.map fun node =>
        (node.1, .file) := by rw [List.map_congr_left hkinds, List.map_id']
    _ = (listing.nodes.map Prod.fst).map fun name => (name, .file) := by rw [List.map_map]; rfl
    _ = files.map fun file => (file.path, .file) := by rw [hnames, List.map_map]; rfl

theorem prefix_nodes_ofFiles (h : (files.map ResolvedFile.path).Nodup) :
    files.map (fun file => (file.path, ListingKind.file)) <+: (ofFiles files).nodes := by
  rw [← nodes_foldl_addNode h]
  exact prefix_foldl prefix_addFile _ files

/-! ## What is listed under a name -/

/-- Under a path are the targets of its file, each once, and under any other name is nothing. -/
theorem targetsOf_ofFiles_cases (h : (files.map ResolvedFile.path).Nodup) (name : String) :
    (∃ file ∈ files, file.path = name ∧ (ofFiles files).targetsOf name = firsts file.targets) ∨
      (name ∉ files.map ResolvedFile.path ∧ (ofFiles files).targetsOf name = []) := by
  rw [targetsOf_ofFiles]
  by_cases hname : name ∈ files.map ResolvedFile.path
  · obtain ⟨file, hfile, rfl⟩ := List.mem_map.mp hname
    refine .inl ⟨file, hfile, rfl, ?_⟩
    rw [filter_key_eq_singleton h hfile, List.flatMap_singleton]
  · have hnone : files.filter (fun file => file.path = name) = [] := by
      apply List.filter_eq_nil_iff.mpr
      intro file hfile htrue
      exact hname (List.mem_map.mpr ⟨file, hfile, of_decide_eq_true htrue⟩)
    refine .inr ⟨hname, ?_⟩
    rw [hnone]
    rfl

/-- What is listed under a name is without repetitions, and has names of its own. -/
theorem nodup_and_mem_of_targetsOf (h : (files.map ResolvedFile.path).Nodup) (name : String) :
    ((ofFiles files).targetsOf name).Nodup ∧
      ∀ target ∈ (ofFiles files).targetsOf name, target ∈ (ofFiles files).nodes.map Prod.fst := by
  rcases targetsOf_ofFiles_cases h name with ⟨file, hfile, -, htargets⟩ | ⟨-, hnone⟩
  · rw [htargets]
    refine ⟨nodup_firsts _, fun target htarget => ?_⟩
    rw [(lists_ofFiles files).nodes, mem_firsts]
    exact List.mem_append_right _ (List.mem_flatMap.mpr ⟨file, hfile, mem_firsts.mp htarget⟩)
  · rw [hnone]
    exact ⟨List.nodup_nil, fun _ htarget => absurd htarget List.not_mem_nil⟩

/-! ## Unresolved dependencies -/

/-- The targets of a file do not tell of its unresolved dependencies. -/
theorem targets_resolvedPart (file : ResolvedFile) : file.resolvedPart.targets = file.targets := by
  unfold ResolvedFile.targets ResolvedFile.resolvedPart
  rw [List.filterMap_filter]
  apply List.filterMap_congr
  intro dependency _
  split
  · rfl
  · next hnot =>
    symm
    apply Dependency.target?_eq_none_iff.mpr
    simpa using hnot

theorem addFile_resolvedPart (listing : Listing) (file : ResolvedFile) :
    listing.addFile file.resolvedPart = listing.addFile file := by
  have hnodes : file.resolvedPart.dependencies.foldl addTarget listing =
      file.dependencies.foldl addTarget listing := by
    unfold ResolvedFile.resolvedPart
    rw [List.foldl_filter]
    congr 1
    funext listing dependency
    split
    · rfl
    · next hnot =>
      have hnone : dependency.target? = none :=
        Dependency.target?_eq_none_iff.mpr (by simpa using hnot)
      rw [addTarget, hnone]
  have htargets : file.resolvedPart.dependencies.filterMap Dependency.target? =
      file.dependencies.filterMap Dependency.target? := targets_resolvedPart file
  rw [addFile, addFile, hnodes, htargets]
  rfl

/-- A listing of files is that of their resolved parts. -/
theorem ofFiles_resolvedPart (files : List ResolvedFile) :
    ofFiles (files.map ResolvedFile.resolvedPart) = ofFiles files := by
  unfold ofFiles
  rw [List.foldl_map, List.foldl_map]
  congr 1
  funext listing file
  exact addFile_resolvedPart listing file

/-! ## The listing of files -/

/-- **A listing of files with distinct paths is well formed**, and their unresolved dependencies
contribute nothing to it. -/
theorem wellFormed_ofFiles (h : (files.map ResolvedFile.path).Nodup) :
    (ofFiles files).WellFormed files ∧
    ofFiles (files.map ResolvedFile.resolvedPart) = ofFiles files := by
  have hlists := lists_ofFiles files
  have hkeys : (ofFiles files).targets.keys = (ofFiles files).nodes.map Prod.fst :=
    hlists.keys.trans hlists.nodes.symm
  have hnames : ((ofFiles files).nodes.map Prod.fst).Nodup := hlists.nodes ▸ nodup_firsts _
  have hprefix := prefix_nodes_ofFiles h
  have hentry : ∀ entry ∈ (ofFiles files).targets, (ofFiles files).targetsOf entry.1 = entry.2 := by
    intro entry hmem
    rw [targetsOf, (Table.get?_eq_some_iff (hkeys ▸ hnames)).mpr hmem]
    rfl
  refine ⟨⟨hkeys, hnames, hprefix, ?_, ?_, ?_⟩, ofFiles_resolvedPart files⟩
  · intro entry hmem
    rw [← hentry entry hmem]
    exact (nodup_and_mem_of_targetsOf h entry.1).2
  · intro entry hmem
    rw [← hentry entry hmem]
    exact (nodup_and_mem_of_targetsOf h entry.1).1
  · intro node hnode hkind
    have hmem : node.1 ∈ (ofFiles files).targets.keys := hkeys ▸ List.mem_map_of_mem hnode
    rw [get?_eq_some_targetsOf hmem]
    rcases targetsOf_ofFiles_cases h node.1 with ⟨file, hfile, hpath, -⟩ | ⟨-, hnone⟩
    · -- the path of a file has the kind of a file, and no other node has its name
      have hfirst : (file.path, ListingKind.file) ∈ (ofFiles files).nodes :=
        hprefix.subset (List.mem_map_of_mem hfile)
      have heq : node = (file.path, .file) :=
        List.inj_on_of_nodup_map hnames hnode hfirst hpath.symm
      exact absurd (congrArg Prod.snd heq) hkind
    · rw [hnone]

/-- Two files that import each other. The first also imports a package with the path of the second
for its name, and the second a package of the system and a file that is not there. -/
def homonymousImports : List ResolvedFile :=
  let internal (token : String) (path : Option String) :=
    (ClassifiedReference.ofToken token .internal).resolve path
  [{ path := "a.js", language := .javascript
     dependencies :=
       [internal "./b" (some "b.js"),
        (ClassifiedReference.ofToken "b.js" .external).resolve none] },
   { path := "b.js", language := .javascript
     dependencies :=
       [(ClassifiedReference.ofToken "fs" .builtin).resolve none, internal "./none" none,
        internal "./a" (some "a.js")] }]

theorem wellFormed_ofFiles_homonymousImports :
    (homonymousImports.map ResolvedFile.path).Nodup ∧
    (ofFiles homonymousImports).WellFormed homonymousImports ∧
      (ofFiles homonymousImports).nodes = [("a.js", .file), ("b.js", .file), ("fs", .builtin)] ∧
      (ofFiles homonymousImports).targets =
        [("a.js", ["b.js"]), ("b.js", ["fs", "a.js"]), ("fs", [])] := by
  have hnodup : (homonymousImports.map ResolvedFile.path).Nodup := by decide
  exact ⟨hnodup, (wellFormed_ofFiles hnodup).1, by decide, by decide⟩

end Listing

end ImportChart
