import ImportChart.Proofs.Graph.Construction
import ImportChart.Proofs.Graph.Listing

/-!
# The edges that leave a node

`Graph.successors` collects the keys that the edges from one key lead to, in the order of the edges.
In a graph they are the first occurrences of what the key is linked to (`Graph.Traces.successors`);
for a file with a path of its own these are its targets, each once, as they stand in a listing of
the files. So the diagram's graph and the listing, which are built by different rounds over the
files, describe the same graph (`Listing.describes_graph`).

The graph is the one that leaves nothing out: every origin is shown, at any depth. Files that share
a path have one node in the graph but each its own place in a listing, so distinct paths are asked
for.
-/

namespace ImportChart

/-- Options that leave no file and no dependency out. -/
def RenderOptions.complete (options : RenderOptions) : RenderOptions :=
  { options with showExternal := true, showBuiltin := true, maxDepth := none }

/-- The dependencies of files by their paths. -/
def GraphInput.ofFiles (files : List ResolvedFile) : GraphInput :=
  .files (.ofPairs (files.map fun file => (file.path, file.dependencies)))

namespace Graph

/-- The keys that the edges from a key lead to, in the order of the edges. -/
def successors (graph : Graph) (key : String) : List String :=
  graph.edges.filterMap fun edge => if graph.key? edge.1 = some key then graph.key? edge.2 else none

/-! ## First occurrences -/

section Firsts

variable {α β : Type} [DecidableEq α] [DecidableEq β]

theorem firsts_cons (a : α) (rest : List α) :
    firsts (a :: rest) = a :: (firsts rest).filter fun b => decide (b ≠ a) := rfl

/-- What is kept of the first occurrences are the first occurrences of what is kept. -/
theorem filter_firsts (p : α → Bool) (xs : List α) :
    (firsts xs).filter p = firsts (xs.filter p) := by
  induction xs with
  | nil => rfl
  | cons a rest ih =>
    rw [firsts_cons, List.filter_cons, List.filter_cons, List.filter_filter]
    by_cases hp : p a = true
    · rw [if_pos hp, if_pos hp, firsts_cons, ← ih, List.filter_filter]
      refine congrArg _ (List.filter_congr fun b _ => ?_)
      exact Bool.and_comm _ _
    · rw [if_neg hp, if_neg hp, ← ih]
      refine List.filter_congr fun b _ => ?_
      by_cases hb : b = a
      · simp [hb, hp]
      · simp [hb]

/-- The images of first occurrences under an injection are first occurrences. -/
theorem map_firsts {f : α → β} (hf : Function.Injective f) (xs : List α) :
    (firsts xs).map f = firsts (xs.map f) := by
  induction xs with
  | nil => rfl
  | cons a rest ih =>
    rw [List.map_cons, firsts_cons, firsts_cons, ← ih, List.map_cons, List.filter_map]
    refine congrArg (fun kept => f a :: List.map f kept) (List.filter_congr fun b _ => ?_)
    simp [hf.eq_iff]

end Firsts

/-! ## Successors from the trace -/

variable {graph : Graph} {met : List Encounter} {links : List (String × String)}

/-- The edges that leave a key lead to what its first links lead to. -/
theorem Traces.ends_eq (h : graph.Traces met links) (key : String) :
    ((graph.edges.filter fun edge => graph.key? edge.1 = some key).map fun edge =>
      graph.key? edge.2) =
      (firsts (links.filter fun link => link.1 = key)).map fun link => some link.2 := by
  have hpairs : ((graph.edges.filter fun edge => graph.key? edge.1 = some key).map fun edge =>
      graph.key? edge.2) =
      ((graph.edges.map fun edge => (graph.key? edge.1, graph.key? edge.2)).filter fun pair =>
        decide (pair.1 = some key)).map Prod.snd := by
    rw [List.filter_map, List.map_map]
    rfl
  have hlinks : (fun pair : Option String × Option String => decide (pair.1 = some key)) ∘
      (fun link : String × String => (some link.1, some link.2)) = fun link =>
        decide (link.1 = key) :=
    funext fun link => decide_eq_decide.mpr Option.some_inj
  rw [hpairs, h.map_key?_edges, List.filter_map, List.map_map, hlinks, filter_firsts]
  rfl

/-- The successors of a key are what its first links lead to. -/
theorem Traces.successors (h : graph.Traces met links) (key : String) :
    graph.successors key = (firsts (links.filter fun link => link.1 = key)).map Prod.snd := by
  have hends : graph.successors key =
      ((graph.edges.filter fun edge => graph.key? edge.1 = some key).map
        fun edge => graph.key? edge.2).filterMap id := by
    rw [List.filterMap_map, List.filterMap_filter]
    simp only [decide_eq_true_eq]
    rfl
  rw [hends, h.ends_eq, List.filterMap_map, ← List.filterMap_eq_map]
  rfl

/-- A key without links has no edges. -/
theorem Traces.key?_ne_of_mem_edges (h : graph.Traces met links) {key : String}
    (hkey : ∀ link ∈ links, link.1 ≠ key) : ∀ edge ∈ graph.edges, graph.key? edge.1 ≠ some key := by
  intro edge hedge hsource
  have hpair : (graph.key? edge.1, graph.key? edge.2) ∈
      (firsts links).map fun link => (some link.1, some link.2) := by
    rw [← h.map_key?_edges]
    exact List.mem_map_of_mem hedge
  obtain ⟨link, hlink, heq⟩ := List.mem_map.mp hpair
  have hfirst : some link.1 = some key := (congrArg Prod.fst heq).trans hsource
  exact hkey link (mem_firsts.mp hlink) (Option.some.inj hfirst)

end Graph

/-! ## The graph of a list of files -/

/-- Elements that give nothing may be left out. -/
theorem flatMap_filter_of_eq_nil {f : α → List β} {p : α → Bool} {xs : List α}
    (h : ∀ a ∈ xs, p a = false → f a = []) : (xs.filter p).flatMap f = xs.flatMap f := by
  induction xs with
  | nil => rfl
  | cons a rest ih =>
    have hrest := ih fun b hb => h b (List.mem_cons_of_mem a hb)
    rw [List.filter_cons, List.flatMap_cons, ← hrest]
    by_cases hp : p a = true
    · rw [if_pos hp, List.flatMap_cons]
    · rw [if_neg hp, h a List.mem_cons_self (Bool.eq_false_iff.mpr hp), List.nil_append]

/-- What elements give under a key is given by those that have the key. -/
theorem filter_flatMap_of_key [DecidableEq κ] {key : α → κ} {keyOf : β → κ}
    {f : α → List β} {xs : List α} (h : ∀ a ∈ xs, ∀ b ∈ f a, keyOf b = key a) (k : κ) :
    (xs.flatMap f).filter (fun b => keyOf b = k) = (xs.filter fun a => key a = k).flatMap f := by
  have hothers : ∀ a ∈ xs, decide (key a = k) = false →
      (f a).filter (fun b => keyOf b = k) = [] := by
    intro a ha hother
    refine List.filter_eq_nil_iff.mpr fun b hb hself => of_decide_eq_false hother ?_
    exact (h a ha b hb).symm.trans (of_decide_eq_true hself)
  rw [List.filter_flatMap, ← flatMap_filter_of_eq_nil hothers]
  apply List.flatMap_congr
  intro a ha
  obtain ⟨hmem, hkey⟩ := List.mem_filter.mp ha
  exact List.filter_eq_self.mpr fun b hb =>
    decide_eq_true ((h a hmem b hb).trans (of_decide_eq_true hkey))

/-- An element is the only one with its key where the keys are distinct. -/
theorem filter_key_eq_singleton [DecidableEq κ] {key : α → κ} {xs : List α}
    (h : (xs.map key).Nodup) {a : α} (ha : a ∈ xs) : xs.filter (fun b => key b = key a) = [a] := by
  obtain ⟨before, after, rfl⟩ := List.append_of_mem ha
  rw [List.map_append, List.map_cons, List.nodup_middle, List.nodup_cons, ← List.map_append] at h
  have hothers : ∀ b ∈ before ++ after, ¬ decide (key b = key a) = true := fun b hb heq =>
    h.1 (of_decide_eq_true heq ▸ List.mem_map_of_mem hb)
  have hbefore := List.filter_eq_nil_iff.mpr fun b hb => hothers b (List.mem_append_left _ hb)
  have hafter := List.filter_eq_nil_iff.mpr fun b hb => hothers b (List.mem_append_right _ hb)
  have hself :
      (a :: after).filter (fun b => key b = key a) = a :: after.filter (fun b => key b = key a) :=
    List.filter_cons_of_pos (decide_eq_true rfl)
  rw [List.filter_append, hbefore, hself, hafter, List.nil_append]

section Files

variable {files : List ResolvedFile}

theorem RenderOptions.admitted_complete (options : RenderOptions) (placed : List PlacedFile) :
    options.complete.admitted placed = placed.filterMap PlacedFile.annotated? := by
  have hall : placed.filter (fun file => options.complete.admitsDepth file.depth) = placed :=
    List.filter_eq_self.mpr fun _ _ => rfl
  rw [admitted, hall]

theorem RenderOptions.shown_complete (options : RenderOptions) (dependencies : List Dependency) :
    options.complete.shown dependencies = dependencies := by
  refine List.filter_eq_self.mpr fun dependency _ => ?_
  cases dependency.origin with
  | internal => rfl
  | external => rfl
  | builtin => rfl

/-- The sources among files with distinct paths are all that have dependencies. -/
theorem GraphInput.sources_ofFiles (h : (files.map ResolvedFile.path).Nodup)
    (options : RenderOptions) :
    (ofFiles files).sources options.complete =
      (files.filter fun file => !file.dependencies.isEmpty).map fun file =>
        (file.path, file.dependencies) := by
  have htable : Table.ofPairs (files.map fun file => (file.path, file.dependencies)) =
      files.map fun file => (file.path, file.dependencies) := by
    refine Table.ofPairs_of_nodup ?_
    rw [List.map_map]
    exact h
  have hadmitted : options.complete.admitted (ofFiles files).placedFiles =
      files.map fun file => (file.path, file.dependencies) := by
    rw [RenderOptions.admitted_complete, ofFiles, placedFiles, htable, List.map_map,
      List.filterMap_map, ← List.filterMap_eq_map]
    rfl
  rw [sources, hadmitted, List.filter_map, List.map_map]
  refine List.map_congr_left fun file _ => ?_
  rw [Function.comp_apply, RenderOptions.shown_complete]

namespace Graph

/-- The links of a file, by its path. -/
def linksOf (file : ResolvedFile) : List (String × String) :=
  file.targets.map fun target => (file.path, target)

theorem dependencies_isEmpty_of_mem_targets {file : ResolvedFile} {target : String}
    (h : target ∈ file.targets) :
    file.dependencies.isEmpty = false := by
  obtain ⟨dependency, hmem, -⟩ := List.mem_filterMap.mp h
  exact List.isEmpty_eq_false_iff.mpr (List.ne_nil_of_mem hmem)

/-- The graph of files with distinct paths links each of them to its targets. -/
theorem traces_ofFiles (h : (files.map ResolvedFile.path).Nodup) (options : RenderOptions) :
    (ofInput (.ofFiles files) options.complete).Traces
      (((GraphInput.ofFiles files).sources options.complete).flatMap Encounter.ofFile)
      (files.flatMap linksOf) := by
  have htraces := ofInput_traces (.ofFiles files) options.complete
  have hlinks : ((GraphInput.ofFiles files).sources options.complete).flatMap linksOfFile =
      files.flatMap linksOf := by
    rw [GraphInput.sources_ofFiles h, List.flatMap_map]
    refine flatMap_filter_of_eq_nil fun file _ hempty => ?_
    have hnone : file.dependencies = [] := by simpa using hempty
    show (file.dependencies.filterMap Dependency.target?).map _ = []
    rw [hnone]
    rfl
  rwa [hlinks] at htraces

/-- The keys of that graph are targets and the paths of files with dependencies. -/
theorem mem_keys_ofFiles (h : (files.map ResolvedFile.path).Nodup)
    (options : RenderOptions) (key : String) :
    key ∈ (ofInput (.ofFiles files) options.complete).nodes.map GraphNode.key ↔
      ∃ file ∈ files, file.dependencies.isEmpty = false ∧
        (key = file.path ∨ key ∈ file.targets) := by
  rw [(traces_ofFiles h options).eq_ofTrace, map_key_nodes_ofTrace, Encounter.mem_keys,
    Encounter.map_key_flatMap_ofFile, GraphInput.sources_ofFiles h, List.flatMap_map,
    List.mem_flatMap]
  simp only [List.mem_filter, List.mem_cons, Bool.not_eq_true', and_assoc, ResolvedFile.targets]

/-- The successors of the path of a file are the targets of the file, each once. -/
theorem successors_ofFiles (h : (files.map ResolvedFile.path).Nodup) (options : RenderOptions)
    (key : String) : (ofInput (.ofFiles files) options.complete).successors key =
      firsts ((files.filter fun file => file.path = key).flatMap ResolvedFile.targets) := by
  have hsource : ∀ file ∈ files, ∀ link ∈ linksOf file, link.1 = file.path := by
    intro file _ link hlink
    obtain ⟨target, -, rfl⟩ := List.mem_map.mp hlink
    rfl
  have hlinks : (files.flatMap linksOf).filter (fun link => link.1 = key) =
      ((files.filter fun file => file.path = key).flatMap ResolvedFile.targets).map
        fun target => (key, target) := by
    rw [filter_flatMap_of_key hsource, List.map_flatMap]
    refine List.flatMap_congr fun file hfile => ?_
    rw [linksOf, of_decide_eq_true (List.mem_filter.mp hfile).2]
  have hpair : Function.Injective fun target : String => (key, target) :=
    fun _ _ heq => congrArg Prod.snd heq
  rw [(traces_ofFiles h options).successors, hlinks, ← map_firsts hpair, List.map_map]
  exact List.map_id _

end Graph

/-- **A listing describes the graph of a diagram.** For files with distinct paths, and a diagram
that leaves nothing out: what is listed under the path of a file are the keys to which the edges of
its node lead, in their order; under any other name nothing is listed, and no edge leaves its node;
and the names are those of the nodes and of the files. -/
theorem Listing.describes_graph (h : (files.map ResolvedFile.path).Nodup)
    (options : RenderOptions) :
    let graph := Graph.ofInput (.ofFiles files) options.complete
    let listing := Listing.ofFiles files
    (∀ file ∈ files, listing.targets.get? file.path = some (graph.successors file.path)) ∧
      (∀ name ∈ listing.nodes.map Prod.fst, name ∉ files.map ResolvedFile.path →
        listing.targets.get? name = some [] ∧ ∀ edge ∈ graph.edges, graph.key? edge.1 ≠ some name) ∧
      ∀ name, name ∈ listing.nodes.map Prod.fst ↔
        name ∈ graph.nodes.map GraphNode.key ∨ name ∈ files.map ResolvedFile.path := by
  intro graph listing
  have hlists := lists_ofFiles files
  have hget : ∀ name ∈ listing.nodes.map Prod.fst,
      listing.targets.get? name = some (listing.targetsOf name) := by
    intro name hname
    rw [hlists.nodes, ← hlists.keys] at hname
    exact get?_eq_some_targetsOf hname
  have hnames : ∀ name, name ∈ listing.nodes.map Prod.fst ↔
      name ∈ files.map ResolvedFile.path ∨ name ∈ files.flatMap ResolvedFile.targets := by
    intro name
    rw [hlists.nodes, mem_firsts, List.mem_append]
  refine ⟨fun file hfile => ?_, fun name hname hother => ⟨?_, ?_⟩, fun name => ?_⟩
  · rw [hget file.path ((hnames _).mpr (.inl (List.mem_map_of_mem hfile))), targetsOf_ofFiles,
      Graph.successors_ofFiles h, filter_key_eq_singleton h hfile]
    simp
  · have hnone : files.filter (fun file => file.path = name) = [] :=
      List.filter_eq_nil_iff.mpr fun file hfile hself =>
        hother (of_decide_eq_true hself ▸ List.mem_map_of_mem hfile)
    rw [hget name hname, targetsOf_ofFiles, hnone]
    rfl
  · refine (Graph.traces_ofFiles h options).key?_ne_of_mem_edges fun link hlink hself => hother ?_
    obtain ⟨file, hfile, hlink⟩ := List.mem_flatMap.mp hlink
    obtain ⟨target, -, rfl⟩ := List.mem_map.mp hlink
    exact hself ▸ List.mem_map_of_mem hfile
  · rw [hnames, Graph.mem_keys_ofFiles h]
    constructor
    · rintro (hpath | htarget)
      · exact .inr hpath
      · obtain ⟨file, hfile, hmem⟩ := List.mem_flatMap.mp htarget
        exact .inl ⟨file, hfile, Graph.dependencies_isEmpty_of_mem_targets hmem, .inr hmem⟩
    · rintro (⟨file, hfile, -, rfl | hmem⟩ | hpath)
      · exact .inl (List.mem_map_of_mem hfile)
      · exact .inr (List.mem_flatMap.mpr ⟨file, hfile, hmem⟩)
      · exact .inl hpath

end Files

/-- Two files that import themselves and each other, one of them by two tokens, and one file with
nothing to draw. -/
def crossImports : List ResolvedFile :=
  let internal (token : String) (path : Option String) :=
    (ClassifiedReference.ofToken token .internal).resolve path
  [{ path := "a.js", language := .javascript
     dependencies :=
       [internal "./b" (some "b.js"), internal "./a" (some "a.js"),
        internal "./b.js" (some "b.js")] },
   { path := "b.js", language := .javascript
     dependencies :=
       [internal "./b" (some "b.js"), (ClassifiedReference.ofToken "fs" .builtin).resolve none,
        internal "./a" (some "a.js")] },
   { path := "c.js", language := .javascript, dependencies := [internal "./none" none] }]

theorem Listing.describes_graph_crossImports :
    (crossImports.map ResolvedFile.path).Nodup ∧
      (Listing.ofFiles crossImports).targets.get? "a.js" =
        some ((Graph.ofInput (.ofFiles crossImports)
          ({} : RenderOptions).complete).successors "a.js") ∧
      (Listing.ofFiles crossImports).targets.get? "fs" = some [] ∧
      (Graph.ofInput (.ofFiles crossImports) ({} : RenderOptions).complete).successors "a.js" =
        ["b.js", "a.js"] := by
  have hnodup : (crossImports.map ResolvedFile.path).Nodup := by decide
  obtain ⟨hfiles, hothers, -⟩ := Listing.describes_graph hnodup {}
  exact ⟨hnodup, hfiles _ List.mem_cons_self, (hothers "fs" (by decide) (by decide)).1, by decide⟩

end ImportChart
