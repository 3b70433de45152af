import ImportChart.Proofs.Analysis.Provenance
import ImportChart.Proofs.Graph.Listing
import ImportChart.Summary

/-!
# Sharing nodes by name

The nodes of a graph go by bare names: a file by its path, a package by its token. So two uses share
a node exactly if they lead to one name, whatever it names. That they then mean one kind of thing
holds with two exceptions (`Homonymous`): the token of a package may be the path of a file of the
tree, and one token may name a package in two languages, which know it as different things.

This is so in a diagram and in a listing alike, and it is shown for both at once. A `GraphView` is
what the two have in common, and `GraphView.MadeOf` says how they come about: each node is made for
the path of a file or for what a dependency leads to, at its first meeting. The rest is a matter of
where dependencies come from.
-/

namespace ImportChart

/-- Two uses, each a dependency with the path of its file, lead to one name without need to mean one
kind of thing: the name is the path of a file and one of them is a package, or they are packages of
different languages. -/
inductive Homonymous (known : List String) (use other : String × Dependency) : Prop where
  | path {name : String} : use.2.target? = some name → other.2.target? = some name → name ∈ known →
      use.2.origin ≠ .internal ∨ other.2.origin ≠ .internal → Homonymous known use other
  | token {name : String} : use.2.target? = some name → other.2.target? = some name →
      use.2.origin ≠ .internal → other.2.origin ≠ .internal →
      Language.detect use.1 ≠ Language.detect other.1 → Homonymous known use other

/-- Two uses that lead to one name are of one origin, or the name is a homonym. -/
theorem Dependency.ReadIn.origin_eq_or_homonymous {snapshot : Snapshot}
    {use other : String × Dependency} (hread : use.2.ReadIn snapshot use.1)
    (hother : other.2.ReadIn snapshot other.1) {name : String} (htarget : use.2.target? = some name)
    (hsame : other.2.target? = some name) :
    use.2.origin = other.2.origin ∨ Homonymous snapshot.tree.filePaths use other := by
  rcases Dependency.target?_eq_some_iff.mp htarget with ⟨horigin, hpath⟩ | ⟨horigin, rfl⟩
  · by_cases hinternal : other.2.origin = .internal
    · exact .inl (horigin.trans hinternal.symm)
    · exact .inr (.path htarget hsame (hread.target_mem horigin hpath) (.inr hinternal))
  · rcases Dependency.target?_eq_some_iff.mp hsame with ⟨hinternal, hpath⟩ | ⟨hforeign, htoken⟩
    · exact .inr (.path htarget hsame (hother.target_mem hinternal hpath) (.inl horigin))
    · by_cases hlanguage : Language.detect use.1 = Language.detect other.1
      · exact .inl (by rw [hread.origin_eq, hother.origin_eq, hlanguage, htoken])
      · exact .inr (.token htarget hsame horigin hforeign hlanguage)

theorem mem_flatMap_pairs {xs : List α} {key : α → κ} {values : α → List β} {pair : κ × β} :
    pair ∈ xs.flatMap (fun a => (values a).map fun b => (key a, b)) ↔
      ∃ a ∈ xs, key a = pair.1 ∧ pair.2 ∈ values a := by
  rw [List.mem_flatMap]
  refine exists_congr fun a => and_congr_right fun _ => ?_
  rw [List.mem_map]
  constructor
  · rintro ⟨b, hb, rfl⟩
    exact ⟨rfl, hb⟩
  · rintro ⟨hkey, hb⟩
    exact ⟨pair.2, hb, Prod.ext hkey rfl⟩

theorem Summary.mem_records {files : List ResolvedFile} {use : String × Dependency} :
    use ∈ records files ↔ ∃ file ∈ files, file.path = use.1 ∧ use.2 ∈ file.dependencies :=
  mem_flatMap_pairs

/-! ## What diagrams and listings have in common -/

/-- A graph as its uses see it: the node of a name, the names that edges lead between, and whether a
node stands for what dependencies of an origin lead to. -/
structure GraphView (α : Type) where
  node? : String → Option α
  links : String → String → Prop
  fits : α → Origin → Prop

namespace GraphView

variable {α : Type} {view : GraphView α}

/-- The node that a dependency uses. -/
def usedBy? (view : GraphView α) (dependency : Dependency) : Option α :=
  dependency.target?.bind view.node?

/-- How uses share the nodes of a graph whose nodes go by names. -/
structure SharesByName (view : GraphView α) (known : List String)
    (uses : List (String × Dependency)) : Prop where
  /-- A use that leads anywhere has an edge from its file to a node, which stands for what the use
  leads to unless it is shared with a homonym. -/
  used : ∀ use ∈ uses, ∀ name, use.2.target? = some name → view.links use.1 name ∧
    ∃ node, view.usedBy? use.2 = some node ∧
      (view.fits node use.2.origin ∨ ∃ other ∈ uses, Homonymous known use other)
  /-- A package uses the node of a file exactly if its token is the path of the file. -/
  file_iff : ∀ use ∈ uses, use.2.origin ≠ .internal → ∀ path ∈ known,
    view.usedBy? use.2 = view.node? path ↔ use.2.token = path
  /-- Two uses share a node exactly if they lead to one name. -/
  shared_iff : ∀ use ∈ uses, ∀ other ∈ uses, ∀ node, view.usedBy? use.2 = some node →
    (view.usedBy? other.2 = some node ↔ other.2.target? = use.2.target?)
  /-- Two uses that share a node are of one origin, or homonyms. -/
  shared_origin : ∀ use ∈ uses, ∀ other ∈ uses, ∀ node, view.usedBy? use.2 = some node →
    view.usedBy? other.2 = some node → use.2.origin = other.2.origin ∨ Homonymous known use other

/-- A graph is made of files and uses: a node has one name, each use has its edge and its node, and
each node was made for the path of a file or for what a use leads to. -/
structure MadeOf (view : GraphView α) (known : List String)
    (uses : List (String × Dependency)) : Prop where
  name_inj : ∀ {name other : String} {node : α}, view.node? name = some node →
    view.node? other = some node →
    name = other
  used : ∀ use ∈ uses, ∀ name, use.2.target? = some name →
    view.links use.1 name ∧ (view.node? name).isSome = true
  made : ∀ {name : String} {node : α}, view.node? name = some node →
    (name ∈ known ∧ view.fits node .internal) ∨
      ∃ other ∈ uses, other.2.target? = some name ∧ view.fits node other.2.origin

/-- A graph made of the files and the uses of a snapshot shares its nodes by name. -/
theorem MadeOf.sharesByName {snapshot : Snapshot} {uses : List (String × Dependency)}
    (h : view.MadeOf snapshot.tree.filePaths uses)
    (hread : ∀ use ∈ uses, use.2.ReadIn snapshot use.1) :
    view.SharesByName snapshot.tree.filePaths uses := by
  -- a node used is that of the target
  have hname : ∀ {use : String × Dependency} {node : α}, view.usedBy? use.2 = some node →
      ∃ name, use.2.target? = some name ∧ view.node? name = some node := fun hused =>
    Option.bind_eq_some_iff.mp hused
  constructor
  case used =>
    intro use huse name htarget
    obtain ⟨hlinks, hsome⟩ := h.used use huse name htarget
    obtain ⟨node, hnode⟩ := Option.isSome_iff_exists.mp hsome
    refine ⟨hlinks, node, by rw [usedBy?, htarget, Option.bind_some, hnode], ?_⟩
    rcases h.made hnode with ⟨hpath, hfits⟩ | ⟨other, hother, hsame, hfits⟩
    · by_cases horigin : use.2.origin = .internal
      · exact .inl (horigin ▸ hfits)
      · exact .inr ⟨use, huse, .path htarget htarget hpath (.inl horigin)⟩
    · rcases (hread use huse).origin_eq_or_homonymous (hread other hother) htarget
        hsame with heq | hhomonym
      · exact .inl (heq ▸ hfits)
      · exact .inr ⟨other, hother, hhomonym⟩
  case file_iff =>
    intro use huse horigin path _
    have htarget := Dependency.target?_of_ne_internal horigin
    obtain ⟨node, hnode⟩ := Option.isSome_iff_exists.mp (h.used use huse _ htarget).2
    rw [usedBy?, htarget, Option.bind_some]
    exact ⟨fun heq => h.name_inj hnode (heq ▸ hnode), fun heq => congrArg view.node? heq⟩
  case shared_iff =>
    intro use _ other _ node hused
    obtain ⟨name, htarget, hnode⟩ := hname hused
    constructor
    · intro hshared
      obtain ⟨same, hsame, hfound⟩ := hname hshared
      rw [hsame, htarget, h.name_inj hfound hnode]
    · intro hsame
      rw [usedBy?, hsame]
      exact hused
  case shared_origin =>
    intro use huse other hother node hused hshared
    obtain ⟨name, htarget, hnode⟩ := hname hused
    obtain ⟨same, hsame, hfound⟩ := hname hshared
    obtain rfl := h.name_inj hfound hnode
    exact (hread use huse).origin_eq_or_homonymous (hread other hother) htarget hsame

end GraphView

/-! ## Diagrams -/

/-- The uses that an input draws, each with the path of its file. -/
def GraphInput.uses (options : RenderOptions) (input : GraphInput) : List (String × Dependency) :=
  (input.sources options).flatMap fun source => source.2.map fun dependency =>
    (source.1, dependency)

/-- The graph of a diagram. A file that is a source is drawn as one, whatever leads to it. -/
def Graph.view (graph : Graph) : GraphView GraphNode where
  node? name := graph.nodes.find? fun node => decide (node.key = name)
  links name other :=
  ∃ edge ∈ graph.edges, graph.key? edge.1 = some name ∧ graph.key? edge.2 = some other
  fits node origin := node.role = .ofOrigin origin ∨ (node.role = .source ∧ origin = .internal)

theorem Graph.key_of_node? {graph : Graph} {name : String} {node : GraphNode}
    (h : graph.view.node? name = some node) : node.key = name :=
  of_decide_eq_true (List.find?_some (p := fun node : GraphNode => decide (node.key = name)) h)

section Input

variable {snapshot : Snapshot} {settings : AnalysisSettings} {input : GraphInput}
  {options : RenderOptions}

theorem GraphInput.mem_uses {use : String × Dependency} :
    use ∈ input.uses options ↔
      ∃ source ∈ input.sources options, source.1 = use.1 ∧ use.2 ∈ source.2 :=
  mem_flatMap_pairs

/-- The uses drawn are uses of the files that were read. -/
theorem Snapshot.mem_records_of_mem_uses (hinput : input ∈ (snapshot.analyze settings).inputs)
    {use : String × Dependency} (h : use ∈ input.uses options) :
    use ∈ Summary.records (snapshot.analyze settings).files := by
  obtain ⟨source, hsource, hpath, hdependency⟩ := GraphInput.mem_uses.mp h
  obtain ⟨file, hfile, hown, hshown⟩ := exists_file_of_source hinput hsource
  rw [hshown] at hdependency
  exact Summary.mem_records.mpr ⟨file, hfile, hown.trans hpath, (List.mem_filter.mp hdependency).1⟩

theorem Snapshot.readIn_of_mem_records {use : String × Dependency}
    (h : use ∈ Summary.records (snapshot.analyze settings).files) :
    use.2.ReadIn snapshot use.1 := by
  obtain ⟨file, hfile, hpath, hdependency⟩ := Summary.mem_records.mp h
  exact hpath ▸ readIn_of_mem_files hfile hdependency

/-- The graph of a diagram of an analysis is made of the files and of the uses drawn. -/
theorem Graph.madeOf_ofInput (hinput : input ∈ (snapshot.analyze settings).inputs) :
    (ofInput input options).view.MadeOf snapshot.tree.filePaths (input.uses options) := by
  have htraces := ofInput_traces input options
  constructor
  case name_inj =>
    intro name other node hname hother
    rw [← key_of_node? hname, key_of_node? hother]
  case used =>
    intro use huse name htarget
    obtain ⟨source, hsource, hpath, hdependency⟩ := GraphInput.mem_uses.mp huse
    have hlink := mem_flatMap_linksOfFile hsource hdependency htarget
    rw [hpath] at hlink
    obtain ⟨hfrom, hto⟩ := htraces.closed _ hlink
    have hedge := (mem_edges_ofTrace htraces.closed).mpr hlink
    rw [← htraces.eq_ofTrace] at hedge
    refine ⟨⟨_, hedge, htraces.key?_place hfrom, htraces.key?_place hto⟩, ?_⟩
    rw [← Encounter.mem_keys,
      ← @map_key_nodes_ofTrace _ ((input.sources options).flatMap linksOfFile),
      ← htraces.eq_ofTrace] at hto
    obtain ⟨node, hnode, hkey⟩ := List.mem_map.mp hto
    exact List.find?_isSome.mpr ⟨node, hnode, decide_eq_true hkey⟩
  case made =>
    intro name node hnode
    obtain rfl := key_of_node? hnode
    obtain ⟨place, hplace⟩ := List.getElem?_of_mem (List.mem_of_find?_eq_some hnode)
    obtain ⟨first, hfirst, rfl⟩ := htraces.eq_toNode hplace
    obtain ⟨hsource, hother⟩ := Encounter.role_toNode hfirst place
    by_cases hpath : first.key ∈ (input.sources options).map Prod.fst
    · obtain ⟨source, hmem, hkey⟩ := List.mem_map.mp hpath
      have hknown : first.key ∈ snapshot.tree.filePaths :=
        hkey ▸ Snapshot.path_mem_of_source hinput hmem
      exact .inl ⟨hknown, .inr ⟨hsource.mpr hpath, rfl⟩⟩
    · obtain ⟨dependency, hfound, hrole⟩ := hother hpath
      have htrue := List.find?_some hfound
      obtain ⟨source, hmem, hdependency⟩ := List.mem_flatMap.mp (List.mem_of_find?_eq_some hfound)
      refine .inr ⟨(source.1, dependency), ?_, of_decide_eq_true htrue, .inl hrole⟩
      exact GraphInput.mem_uses.mpr ⟨source, hmem, rfl, hdependency⟩

end Input

/-! ## Listings -/

/-- The graph of a listing. -/
def Listing.view (listing : Listing) : GraphView (String × ListingKind) where
  node? name := listing.nodes.find? fun node => decide (node.1 = name)
  links name other := other ∈ listing.targetsOf name
  fits node origin := node.2 = .ofOrigin origin

/-- The listing of an analysis is made of the files read and of all their uses. -/
theorem Listing.madeOf_ofFiles {snapshot : Snapshot} {settings : AnalysisSettings} :
    (ofFiles (snapshot.analyze settings).files).view.MadeOf snapshot.tree.filePaths
      (Summary.records (snapshot.analyze settings).files) := by
  have hname : ∀ {name : String} {node : String × ListingKind},
      (ofFiles (snapshot.analyze settings).files).view.node? name = some node → node.1 = name :=
    fun {name _} h =>
      of_decide_eq_true (List.find?_some (p := fun node : String × ListingKind =>
        decide (node.1 = name)) h)
  constructor
  case name_inj =>
    intro name other node hfound hother
    rw [← hname hfound, hname hother]
  case used =>
    intro use huse name htarget
    obtain ⟨file, hfile, hpath, hdependency⟩ := Summary.mem_records.mp huse
    have hlisted : name ∈ file.targets := List.mem_filterMap.mpr ⟨use.2, hdependency, htarget⟩
    constructor
    · show name ∈ targetsOf _ use.1
      rw [targetsOf_ofFiles]
      exact List.mem_flatMap.mpr ⟨file, List.mem_filter.mpr ⟨hfile, decide_eq_true hpath⟩,
        mem_firsts.mpr hlisted⟩
    · have hmet : name ∈ (ofFiles (snapshot.analyze settings).files).nodes.map Prod.fst := by
        rw [(lists_ofFiles _).nodes, mem_firsts]
        exact List.mem_append_right _ (List.mem_flatMap.mpr ⟨file, hfile, hlisted⟩)
      obtain ⟨node, hnode, hkey⟩ := List.mem_map.mp hmet
      exact List.find?_isSome.mpr ⟨node, hnode, decide_eq_true hkey⟩
  case made =>
    intro name node hnode
    obtain rfl := hname hnode
    refine forall_nodes_ofFiles (P := fun node =>
      (node.1 ∈ snapshot.tree.filePaths ∧ node.2 = .ofOrigin .internal) ∨
      ∃ other ∈ Summary.records (snapshot.analyze settings).files,
        other.2.target? = some node.1 ∧
        node.2 = .ofOrigin other.2.origin) ?_ ?_ node (List.mem_of_find?_eq_some hnode)
    · exact fun file hfile => .inl ⟨Snapshot.path_mem_of_mem_files hfile, rfl⟩
    · intro file hfile dependency hdependency target htarget
      exact .inr ⟨(file.path, dependency),
        Summary.mem_records.mpr ⟨file, hfile, rfl, hdependency⟩, htarget, rfl⟩

/-! ## The graphs of an analysis -/

namespace Snapshot

/-- **Nodes are shared by name, in every diagram and in the listing of an analysis.** A package uses
the node of a file of the tree only where its token is the path of the file. Uses that share a node
are of one origin, and the node stands for what they lead to, unless the name is a homonym. -/
theorem analyze_sharesByName (snapshot : Snapshot) (settings : AnalysisSettings) :
    let analysis := snapshot.analyze settings
    let known := snapshot.tree.filePaths
    (∀ input ∈ analysis.inputs, ∀ options : RenderOptions,
      (∀ use ∈ input.uses options, use ∈ Summary.records analysis.files) ∧
        (Graph.ofInput input options).view.SharesByName known (input.uses options)) ∧
      (Listing.ofFiles analysis.files).view.SharesByName known
        (Summary.records analysis.files) := by
  intro analysis known
  have hread : ∀ use ∈ Summary.records analysis.files, use.2.ReadIn snapshot use.1 := fun _ huse =>
    readIn_of_mem_records huse
  refine ⟨fun input hinput options => ?_, Listing.madeOf_ofFiles.sharesByName hread⟩
  have hrecords : ∀ use ∈ input.uses options, use ∈ Summary.records analysis.files := fun _ huse =>
    mem_records_of_mem_uses hinput huse
  exact ⟨hrecords, (Graph.madeOf_ofInput hinput).sharesByName fun use huse =>
    hread use (hrecords use huse)⟩

/-- A package with the name of a file, and one token that names a package of two languages. -/
def homonymousFiles : Snapshot where
  tree := [.file "a.js" "a.js" none, .file "lib.js" "lib.js" none, .file "m.py" "m.py" none]
  contents :=
    [("a.js", "import 'lib.js'; import 'json';"), ("lib.js", "import './a';"),
      ("m.py", "import json")]

/-- In the diagram and in the listing of these files an external package uses the node of a file,
and an external and a builtin package share a node. -/
theorem analyze_sharesByName_homonymousFiles :
    let analysis := homonymousFiles.analyze {}
    let input := GraphInput.tree analysis.tree
    let options : RenderOptions := { showBuiltin := true }
    let diagram := (Graph.ofInput input options).view
    let listing := (Listing.ofFiles analysis.files).view
    ((∃ use ∈ input.uses options,
      use.2.origin = .external ∧ ∃ path ∈ homonymousFiles.tree.filePaths,
        (diagram.node? path).isSome = true ∧ diagram.usedBy? use.2 = diagram.node? path) ∧
      ∃ use ∈ input.uses options, ∃ other ∈ input.uses options, use.2.origin ≠ other.2.origin ∧
        (diagram.usedBy? use.2).isSome = true ∧ diagram.usedBy? use.2 = diagram.usedBy? other.2) ∧
    (∃ use ∈ Summary.records analysis.files,
      use.2.origin = .external ∧ ∃ path ∈ homonymousFiles.tree.filePaths,
        (listing.node? path).isSome = true ∧ listing.usedBy? use.2 = listing.node? path) ∧
      ∃ use ∈ Summary.records analysis.files, ∃ other ∈ Summary.records analysis.files,
        use.2.origin ≠ other.2.origin ∧
          (listing.usedBy? use.2).isSome = true ∧
          listing.usedBy? use.2 = listing.usedBy? other.2 := by
  decide +kernel

end Snapshot

end ImportChart
