import ImportChart.Proofs.Tree.Level

/-!
# The one canonical tree

A tree whose levels are all canonical is known by the paths of its files: it is the tree that is
made of these paths (`Tree.ofPaths_filePaths`). Since the tree of a list of paths has canonical
levels, and the paths of its files are the given ones, it is the only tree of this kind.

A way is the list of the names on the path to a file (`Tree.ways`). In a canonical tree the ways are
what the paths of the files are made of (`Tree.map_namedSegments_filePaths`), and building a level
from the ways below it gives the level back (`entriesBelow_ways`): its names are those of its
entries, which are in order already, and the ways behind the name of a directory are those of its
own level.
-/

namespace ImportChart

/-- A path without its empty segments. -/
def Path.normalized (path : String) : String :=
  ofSegments (namedSegments path)

theorem Path.normalized_eq_empty_iff {path : String} :
    normalized path = "" ↔ namedSegments path = [] := by
  have hnil : ∀ part ∈ ([] : List String), IsName part := nofun
  refine ⟨fun h => ofSegments_inj (fun _ => isName_of_mem_namedSegments) hnil h, fun h => ?_⟩
  rw [normalized, h]
  rfl

mutual
/-- The names on the ways to the files at and below a node, its own first. -/
def Node.ways : Node → List (List String)
  | .file name .. => [[name]]
  | .directory name _ children => (Tree.ways children).map (name :: ·)
/-- The names on the ways to the files of a tree. -/
def Tree.ways : Tree → List (List String)
  | [] => []
  | node :: rest => node.ways ++ Tree.ways rest
end

/-- The levels of a tree that stands below the directory with the given names are canonical. -/
def Tree.CanonicalBelow (parents : List String) (tree : Tree) : Prop :=
  ∀ level ∈ (⟨parents.length, directoryPath parents, tree⟩ : Level) ::
    tree.levelsBelow parents.length, level.Canonical

/-- What holds of a level if it holds of the levels of its directories holds of every tree. -/
@[elab_as_elim]
theorem Tree.induction_levels {motive : Tree → Prop}
    (level : ∀ tree : Tree,
      (∀ name path children, Node.directory name path children ∈ tree → motive children) →
      motive tree)
    (tree : Tree) : motive tree :=
  level tree fun _ _ children hmem =>
    have : sizeOf children < sizeOf tree := by
      have hnode := List.sizeOf_lt_of_mem hmem
      rw [Node.directory.sizeOf_spec] at hnode
      omega
    Tree.induction_levels level children
termination_by sizeOf tree

section

variable {tree : Tree} {node : Node} {name path : String}
  {parents route : List String} {depth : Nat}

/-! ## The names of a canonical level -/

/-- The names of nodes in order are in order. -/
theorem pairwise_name_lt {nodes : Tree} (h : nodes.Pairwise Node.Precedes) :
    (nodes.map Node.name).Pairwise (· < ·) :=
  List.pairwise_map.mpr (h.imp bytesOf_lt_iff.mp)

namespace Tree.CanonicalBelow

theorem canonical (h : tree.CanonicalBelow parents) :
    Level.Canonical ⟨parents.length, directoryPath parents, tree⟩ :=
  h _ List.mem_cons_self

theorem path_eq (h : tree.CanonicalBelow parents) (hnode : node ∈ tree) :
    node.path = Path.ofSegments (parents ++ [node.name]) := by
  rw [h.canonical.path_eq node hnode, pathOf_directoryPath]

/-- The name of an entry has no slash: the path has none but those before the name. -/
theorem isName (h : tree.CanonicalBelow parents) (hparents : ∀ parent ∈ parents, Path.IsName parent)
    (hnode : node ∈ tree) : Path.IsName node.name := by
  refine ⟨h.canonical.name_ne node hnode, List.count_eq_zero.mp ?_⟩
  have hdepth : Path.depth (Path.ofSegments (parents ++ [node.name])) = parents.length := by
    rw [← h.path_eq hnode]
    exact h.canonical.depth_eq node hnode
  by_cases hroot : parents = []
  · rw [hroot] at hdepth
    exact hdepth
  · have habove := Path.depth_ofSegments hparents hroot
    rw [Path.ofSegments_concat hroot, ← String.append_assoc, Path.depth, Path.toList_append_slash,
      List.count_append, List.count_cons_self] at hdepth
    rw [Path.depth] at habove
    omega

/-- The levels below a directory of a canonical level. -/
theorem below {children : Tree} (h : tree.CanonicalBelow parents)
    (hnode : .directory name path children ∈ tree) :
    children.CanonicalBelow (parents ++ [name]) := by
  have hpath : path = Path.ofSegments (parents ++ [name]) := h.path_eq hnode
  have hlevels :
      (⟨(parents ++ [name]).length, directoryPath (parents ++ [name]), children⟩ : Level) ::
      children.levelsBelow (parents ++ [name]).length =
        (Node.directory name path children).levels parents.length := by
    rw [directoryPath_concat, ← hpath, List.length_append]
    rfl
  intro level hlevel
  rw [hlevels] at hlevel
  refine h level (List.mem_cons_of_mem _ ?_)
  rw [levelsBelow_eq_flatMap]
  exact List.mem_flatMap.mpr ⟨_, hnode, hlevel⟩

end Tree.CanonicalBelow

/-! ## Ways -/

namespace Tree

theorem ways_eq_flatMap (tree : Tree) : tree.ways = tree.flatMap Node.ways := by
  induction tree with
  | nil => rfl
  | cons node rest ih => rw [ways, ih, List.flatMap_cons]

theorem files_eq_flatMap (tree : Tree) : tree.files = tree.flatMap Node.files := by
  induction tree with
  | nil => rfl
  | cons node rest ih => rw [Tree.files, ih, List.flatMap_cons]

theorem mem_ways : route ∈ tree.ways ↔ ∃ node ∈ tree, route ∈ node.ways := by
  rw [ways_eq_flatMap, List.mem_flatMap]

/-- A way has a name. -/
theorem ne_nil_of_mem_ways (h : route ∈ tree.ways) : route ≠ [] := by
  obtain ⟨node, -, hroute⟩ := mem_ways.mp h
  cases node with
  | file name path dependencies =>
    rw [List.mem_singleton.mp hroute]
    exact List.cons_ne_nil name []
  | directory name path children =>
    obtain ⟨rest, -, rfl⟩ := List.mem_map.mp hroute
    exact List.cons_ne_nil name rest

/-- The paths of the files of a canonical tree are made of its ways. -/
theorem map_namedSegments_filePaths (hparents : ∀ parent ∈ parents, Path.IsName parent)
    (h : tree.CanonicalBelow parents) :
    tree.filePaths.map Path.namedSegments = tree.ways.map (parents ++ ·) := by
  induction tree using Tree.induction_levels generalizing parents with
  | level tree ih =>
    rw [filePaths, files_eq_flatMap, ways_eq_flatMap, List.map_flatMap, List.map_flatMap,
      List.map_flatMap]
    refine List.flatMap_congr fun node hnode => ?_
    have hnames := isName_concat hparents (h.isName hparents hnode)
    have hpath := h.path_eq hnode
    cases node with
    | file name path dependencies =>
      change [Path.namedSegments (Node.file name path dependencies).path] = [parents ++ [name]]
      rw [hpath, Path.namedSegments_ofSegments hnames]
      rfl
    | directory name path children =>
      have hbelow : (Tree.filePaths children).map Path.namedSegments =
          (Tree.ways children).map (parents ++ [name] ++ ·) :=
        ih name path children hnode hnames (h.below hnode)
      rw [filePaths] at hbelow
      rw [Node.files, Node.ways, hbelow, List.map_map]
      exact List.map_congr_left fun route _ => List.append_assoc parents [name] route

/-- Below an entry of a canonical level there is a way. -/
theorem exists_mem_ways (hparents : ∀ parent ∈ parents, Path.IsName parent)
    (h : tree.CanonicalBelow parents) (hnode : node ∈ tree) : ∃ route, route ∈ node.ways := by
  cases node with
  | file name path dependencies => exact ⟨[name], List.mem_singleton_self _⟩
  | directory name path children =>
    have hfiles : Tree.files children ≠ [] := h.canonical.files_ne _ hnode
    have hbelow :=
      map_namedSegments_filePaths (isName_concat hparents (h.isName hparents hnode)) (h.below hnode)
    obtain ⟨route, hroute⟩ : ∃ route, route ∈ Tree.ways children := by
      refine List.exists_mem_of_ne_nil _ fun hnone => hfiles ?_
      rw [hnone, List.map_nil, List.map_eq_nil_iff, filePaths, List.map_eq_nil_iff] at hbelow
      exact hbelow
    exact ⟨name :: route, List.mem_map_of_mem hroute⟩

/-- A way with one name leads to a file of the level. -/
theorem mem_fileNames_ways :
    name ∈ fileNames tree.ways ↔ ∃ path dependencies, .file name path dependencies ∈ tree := by
  rw [mem_fileNames, mem_ways]
  constructor
  · rintro ⟨node, hnode, hway⟩
    cases node with
    | file own path dependencies =>
      obtain rfl := (List.cons.inj (List.mem_singleton.mp hway)).1
      exact ⟨path, dependencies, hnode⟩
    | directory own path children =>
      obtain ⟨route, hroute, heq⟩ := List.mem_map.mp hway
      exact absurd (List.cons.inj heq).2 (ne_nil_of_mem_ways hroute)
  · rintro ⟨path, dependencies, hnode⟩
    exact ⟨_, hnode, List.mem_singleton_self _⟩

/-- A way with more names leads through a directory of the level. -/
theorem mem_pathsBelow_ways : route ∈ pathsBelow name tree.ways ↔
    ∃ path children, .directory name path children ∈ tree ∧ route ∈ Tree.ways children := by
  rw [mem_pathsBelow, mem_ways]
  constructor
  · rintro ⟨hne, node, hnode, hway⟩
    cases node with
    | file own path dependencies => exact absurd (List.cons.inj (List.mem_singleton.mp hway)).2 hne
    | directory own path children =>
      obtain ⟨rest, hrest, heq⟩ := List.mem_map.mp hway
      obtain ⟨rfl, rfl⟩ := List.cons.inj heq
      exact ⟨path, children, hnode, hrest⟩
  · rintro ⟨path, children, hnode, hroute⟩
    exact ⟨ne_nil_of_mem_ways hroute, _, hnode, List.mem_map_of_mem hroute⟩

end Tree

/-! ## Building a level from its ways -/

/-- The directories of a canonical level come first, then the files. -/
theorem Level.Canonical.entries_eq_filter {level : Level} (h : level.Canonical) :
    level.entries = level.entries.filter Node.isDirectory ++ level.entries.filter Node.isFile ∧
      (level.entries.filter Node.isDirectory).Pairwise Node.Precedes ∧
      (level.entries.filter Node.isFile).Pairwise Node.Precedes := by
  obtain ⟨directories, files, hentries, hdirectories, hfiles, hordered, hordered'⟩ := h.sorted
  have hnone : ∀ node : Node, node.isFile = true ↔ ¬node.isDirectory = true := by
    rintro (_ | _)
    · exact iff_of_true rfl Bool.false_ne_true
    · exact iff_of_false Bool.false_ne_true (not_not_intro rfl)
  have hfilter : level.entries.filter Node.isDirectory = directories := by
    have hnot : ∀ node ∈ files, ¬node.isDirectory = true :=
      fun node hnode => (hnone node).mp (hfiles node hnode)
    rw [hentries, List.filter_append, List.filter_eq_self.mpr hdirectories,
      List.filter_eq_nil_iff.mpr hnot, List.append_nil]
  have hfilter' : level.entries.filter Node.isFile = files := by
    have hnot : ∀ node ∈ directories, ¬node.isFile = true := fun node hnode hfile =>
      (hnone node).mp hfile (hdirectories node hnode)
    rw [hentries, List.filter_append, List.filter_eq_self.mpr hfiles,
      List.filter_eq_nil_iff.mpr hnot, List.nil_append]
  rw [hfilter, hfilter']
  exact ⟨hentries, hordered, hordered'⟩

namespace Tree.CanonicalBelow

/-- The names of directories on the ways of a canonical tree are those of its directories, in
order. -/
theorem sortedNames_directoryNames (h : tree.CanonicalBelow parents)
    (hparents : ∀ parent ∈ parents, Path.IsName parent) :
    sortedNames (directoryNames tree.ways) = (tree.filter Node.isDirectory).map Node.name := by
  refine sortedNames_eq_of_pairwise (fun name => ?_)
    (pairwise_name_lt h.canonical.entries_eq_filter.2.1)
  simp only [mem_directoryNames, mem_pathsBelow_ways, List.mem_map, List.mem_filter]
  constructor
  · rintro ⟨-, path, children, hnode, -⟩
    exact ⟨_, ⟨hnode, rfl⟩, rfl⟩
  · rintro ⟨node, ⟨hnode, hdirectory⟩, rfl⟩
    cases node with
    | file name path dependencies => cases hdirectory
    | directory name path children =>
      obtain ⟨_, hway⟩ := exists_mem_ways hparents h hnode
      obtain ⟨route, hroute, -⟩ := List.mem_map.mp hway
      exact ⟨route, path, children, hnode, hroute⟩

/-- The names of files on the ways of a canonical tree are those of its files, in order. -/
theorem sortedNames_fileNames (h : tree.CanonicalBelow parents) :
    sortedNames (fileNames tree.ways) = (tree.filter Node.isFile).map Node.name := by
  refine sortedNames_eq_of_pairwise (fun name => ?_)
    (pairwise_name_lt h.canonical.entries_eq_filter.2.2)
  simp only [mem_fileNames_ways, List.mem_map, List.mem_filter]
  constructor
  · rintro ⟨path, dependencies, hnode⟩
    exact ⟨_, ⟨hnode, rfl⟩, rfl⟩
  · rintro ⟨node, ⟨hnode, hfile⟩, rfl⟩
    cases node with
    | file name path dependencies => exact ⟨path, dependencies, hnode⟩
    | directory name path children => cases hfile

/-- A directory of a canonical level is the only one of its name, so the ways behind the name are
its own. -/
theorem mem_pathsBelow_iff {children : Tree} (h : tree.CanonicalBelow parents)
    (hnode : .directory name path children ∈ tree) :
    route ∈ pathsBelow name tree.ways ↔ route ∈ Tree.ways children := by
  rw [mem_pathsBelow_ways]
  refine ⟨fun ⟨path', children', hnode', hroute⟩ => ?_,
    fun hroute => ⟨path, children, hnode, hroute⟩⟩
  have hnodup : ((tree.filter Node.isDirectory).map Node.name).Nodup :=
    (pairwise_name_lt h.canonical.entries_eq_filter.2.1).nodup
  have heq :=
    List.inj_on_of_nodup_map hnodup (List.mem_filter.mpr ⟨hnode', rfl⟩)
      (List.mem_filter.mpr ⟨hnode, rfl⟩) rfl
  cases heq
  exact hroute

end Tree.CanonicalBelow

/-- The entries made of the ways of a canonical tree are the tree. -/
theorem entriesBelow_ways (hparents : ∀ parent ∈ parents, Path.IsName parent)
    (h : tree.CanonicalBelow parents) (hdepth : ∀ route ∈ tree.ways, route.length ≤ depth) :
    entriesBelow depth (Path.ofSegments parents) tree.ways = tree := by
  induction depth generalizing parents tree with
  | zero =>
    -- a way has a name, and without a way there is no entry
    refine (List.eq_nil_iff_forall_not_mem.mpr fun node hnode => ?_).symm
    obtain ⟨route, hroute⟩ := Tree.exists_mem_ways hparents h hnode
    have hway := Tree.mem_ways.mpr ⟨node, hnode, hroute⟩
    exact Tree.ne_nil_of_mem_ways hway
      (List.length_eq_zero_iff.mp (Nat.le_zero.mp (hdepth route hway)))
  | succ depth ih =>
    rw [entriesBelow, h.sortedNames_directoryNames hparents, h.sortedNames_fileNames, List.map_map,
      List.map_map]
    refine Eq.trans ?_ h.canonical.entries_eq_filter.1.symm
    refine congrArg₂ (· ++ ·) ((List.map_congr_left fun node hmem => ?_).trans (List.map_id _))
      ((List.map_congr_left fun node hmem => ?_).trans (List.map_id _))
    · obtain ⟨hnode, hdirectory⟩ := List.mem_filter.mp hmem
      cases node with
      | file name path dependencies => cases hdirectory
      | directory name path children =>
        have hown : path = Path.ofSegments (parents ++ [name]) := h.path_eq hnode
        have hchildren : entriesBelow depth path (pathsBelow name tree.ways) = children := by
          rw [hown, entriesBelow_congr fun route _ => h.mem_pathsBelow_iff hnode]
          refine ih (isName_concat hparents (h.isName hparents hnode)) (h.below hnode)
            fun route hroute => ?_
          have hway : name :: route ∈ tree.ways :=
            Tree.mem_ways.mpr ⟨_, hnode, List.mem_map_of_mem hroute⟩
          exact Nat.le_of_succ_le_succ (hdepth _ hway)
        change Node.directory name (pathBelow (Path.ofSegments parents) name) _ =
          Node.directory name path children
        rw [Node.name, pathBelow_ofSegments hparents, ← hown, hchildren]
    · obtain ⟨hnode, hfile⟩ := List.mem_filter.mp hmem
      cases node with
      | file name path dependencies =>
        have hown : path = Path.ofSegments (parents ++ [name]) := h.path_eq hnode
        have hnone : dependencies = none := h.canonical.dependencies_eq _ hnode
        change Node.file name (pathBelow (Path.ofSegments parents) name) none =
          Node.file name path dependencies
        rw [pathBelow_ofSegments hparents, ← hown, hnone]
      | directory name path children => cases hfile

end

/-- A tree whose levels are all canonical is the tree of the paths of its files. -/
theorem Tree.ofPaths_filePaths {tree : Tree} (h : ∀ level ∈ tree.levels, level.Canonical) :
    ofPaths tree.filePaths = tree := by
  have hroot : ∀ parent ∈ ([] : List String), Path.IsName parent := nofun
  have hways : tree.filePaths.map Path.namedSegments = tree.ways :=
    (map_namedSegments_filePaths hroot h).trans (List.map_id _)
  rw [ofPaths, hways]
  exact entriesBelow_ways hroot h fun route hroute =>
    (foldl_max_le_iff.mp (Nat.le_refl _)).2 _ (List.mem_map_of_mem hroute)

/-- **The tree of a list of paths is the canonical tree of the paths without their empty segments.**
Each of these paths that is not empty has one file, and there is no other file. On every level the
path and the depth of an entry follow from its name, the directories come before the files, the
names of either increase in the order of their bytes, and below each directory there is a file. No
other tree has such levels and these files; so any list of the same paths, in any order and spelling
and with repetitions, makes the same tree, and so do the paths of its own files. -/
theorem Tree.ofPaths_canonical (paths : List String) :
    (ofPaths paths).filePaths.Nodup ∧
      (∀ path, path ∈ (ofPaths paths).filePaths ↔ path ≠ "" ∧ path ∈ paths.map Path.normalized) ∧
      (∀ level ∈ (ofPaths paths).levels, level.Canonical) ∧
      (∀ tree : Tree, (∀ level ∈ tree.levels, level.Canonical) →
        (∀ path, path ∈ tree.filePaths ↔ path ∈ (ofPaths paths).filePaths) → tree = ofPaths paths) ∧
      (∀ others : List String,
        (∀ path, path ≠ "" → (path ∈ others.map Path.normalized ↔
          path ∈ paths.map Path.normalized)) →
          ofPaths others = ofPaths paths) ∧
      ofPaths (ofPaths paths).filePaths = ofPaths paths := by
  have hcanonical : ∀ paths, ∀ level ∈ (ofPaths paths).levels, level.Canonical :=
    fun _ _ => canonical_of_mem_levels_ofPaths
  have hfiles : ∀ paths path, path ∈ (ofPaths paths).filePaths ↔
      path ≠ "" ∧ path ∈ paths.map Path.normalized := by
    intro paths path
    rw [mem_filePaths_ofPaths, List.mem_map]
    constructor
    · rintro ⟨file, hfile, hne, rfl⟩
      exact ⟨fun hempty => hne (Path.normalized_eq_empty_iff.mp hempty), file, hfile, rfl⟩
    · rintro ⟨hne, file, hfile, rfl⟩
      exact ⟨file, hfile, fun hempty => hne (Path.normalized_eq_empty_iff.mpr hempty), rfl⟩
  have hunique : ∀ tree : Tree, (∀ level ∈ tree.levels, level.Canonical) →
      (∀ path, path ∈ tree.filePaths ↔ path ∈ (ofPaths paths).filePaths) →
      tree = ofPaths paths := by
    intro tree htree hpaths
    rw [← ofPaths_filePaths htree, ← ofPaths_filePaths (hcanonical paths)]
    refine ofPaths_congr fun route _ => ?_
    rw [List.mem_map, List.mem_map]
    exact exists_congr fun path => and_congr_left fun _ => hpaths path
  refine ⟨nodup_filePaths_ofPaths paths, hfiles paths, hcanonical paths, hunique,
    fun others hsame => ?_, ofPaths_filePaths (hcanonical paths)⟩
  refine hunique _ (hcanonical others) fun path => ?_
  rw [hfiles, hfiles]
  exact and_congr_right (hsame path)

end ImportChart
