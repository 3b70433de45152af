import ImportChart.Proofs.Text.ByteOrder
import ImportChart.Proofs.Tree.Annotation
import ImportChart.Proofs.Tree.Canonical

/-!
# The levels of a tree

A level is a directory of a tree together with what stands in it; the root is one, without a path.
`Tree.levels` lists the levels of a tree, so what holds of every level holds in every directory and
at every depth.

A level is canonical (`Level.Canonical`) if its entries can be read off the paths of the files below
them: the path of an entry is that of the directory with one name more and as deep as the level, the
directories come first, the names of either kind increase in the order of their bytes, and below
each entry there is a file. The levels of the tree of a list of paths are canonical
(`Tree.canonical_of_mem_levels_ofPaths`).
-/

namespace ImportChart

/-- A directory of a tree with its entries, which have as many directories above them as the level
is deep. The root has no path. -/
structure Level where
  depth : Nat
  directory : Option String
  entries : Tree

mutual
/-- The levels at and below a node. -/
def Node.levels (depth : Nat) : Node → List Level
  | .file .. => []
  | .directory _ path children =>
    ⟨depth + 1, some path, children⟩ :: Tree.levelsBelow (depth + 1) children
/-- The levels below the nodes of a level. -/
def Tree.levelsBelow (depth : Nat) : Tree → List Level
  | [] => []
  | node :: rest => node.levels depth ++ Tree.levelsBelow depth rest
end

/-- The levels of a tree, the root first. -/
def Tree.levels (tree : Tree) : List Level :=
  ⟨0, none, tree⟩ :: tree.levelsBelow 0

/-- The path of an entry of a level: that of the directory, a slash and the name; in the root just
the name. -/
def Level.pathOf (level : Level) (name : String) : String :=
  match level.directory with
  | none => name
  | some directory => directory ++ "/" ++ name

/-- The name of a node comes before that of another in the order of their bytes. -/
def Node.Precedes (node other : Node) : Prop :=
  bytesOf node.name < bytesOf other.name

/-- A level as it is made from the paths of the files below it. -/
structure Level.Canonical (level : Level) : Prop where
  /-- No file carries dependencies yet. -/
  dependencies_eq : ∀ node ∈ level.entries, node.dependencies? = none
  name_ne : ∀ node ∈ level.entries, node.name ≠ ""
  path_eq : ∀ node ∈ level.entries, node.path = level.pathOf node.name
  depth_eq : ∀ node ∈ level.entries, Path.depth node.path = level.depth
  /-- Directories before files, and the names of either in order. -/
  sorted : ∃ directories files : Tree, level.entries = directories ++ files ∧
    (∀ node ∈ directories, node.isDirectory = true) ∧ (∀ node ∈ files, node.isFile = true) ∧
    directories.Pairwise Node.Precedes ∧ files.Pairwise Node.Precedes
  /-- A directory has a file below it. -/
  files_ne : ∀ node ∈ level.entries, node.files ≠ []

/-! ## Levels below names -/

/-- The path of the directory with the given names; without a name it is the root. -/
def directoryPath (parents : List String) : Option String :=
  if parents = [] then none else some (Path.ofSegments parents)

section

variable {parents : List String} {depth : Nat} {paths : List (List String)}
  {tree : Tree} {level : Level}

theorem directoryPath_concat (parents : List String) (name : String) :
    directoryPath (parents ++ [name]) = some (Path.ofSegments (parents ++ [name])) :=
  if_neg (List.concat_ne_nil name parents)

theorem pathOf_directoryPath (depth : Nat) (parents : List String) (tree : Tree) (name : String) :
    Level.pathOf ⟨depth, directoryPath parents, tree⟩ name =
      Path.ofSegments (parents ++ [name]) := by
  rw [directoryPath]
  by_cases hroot : parents = []
  · rw [hroot]
    rfl
  · rw [if_neg hroot, Path.ofSegments_concat hroot, ← String.append_assoc]
    rfl

/-- The levels below nodes are those below each of them. -/
theorem Tree.levelsBelow_eq_flatMap (depth : Nat) (tree : Tree) :
    tree.levelsBelow depth = tree.flatMap (Node.levels depth) := by
  induction tree with
  | nil => rfl
  | cons node rest ih => rw [levelsBelow, ih, List.flatMap_cons]

/-! ## The levels made from paths -/

/-- An entry of a directory is made of a name of either kind. -/
theorem mem_entriesBelow {parent : String} {node : Node} :
    node ∈ entriesBelow (depth + 1) parent paths ↔
      (∃ name ∈ directoryNames paths, node = .directory name (pathBelow parent name)
        (entriesBelow depth (pathBelow parent name) (pathsBelow name paths))) ∨
      ∃ name ∈ fileNames paths, node = .file name (pathBelow parent name) none := by
  rw [entriesBelow, List.mem_append, List.mem_map, List.mem_map]
  simp only [mem_sortedNames, eq_comm]

/-- Below a directory with paths there are files. -/
theorem files_entriesBelow_ne_nil (hparents : ∀ parent ∈ parents, Path.IsName parent)
    (hpaths : ∀ path ∈ paths, ∀ name ∈ path, Path.IsName name) {route : List String}
    (hroute : route ∈ paths) (hne : route ≠ []) (hdepth : route.length ≤ depth) :
    Tree.files (entriesBelow depth (Path.ofSegments parents) paths) ≠ [] := by
  intro hnone
  have hpaths' :=
    Tree.map_path_placedFiles parents.length (entriesBelow depth (Path.ofSegments parents) paths)
  rw [placedFiles_entriesBelow depth hparents hpaths, Tree.filePaths, hnone, List.map_nil,
    List.map_eq_nil_iff, List.map_eq_nil_iff] at hpaths'
  have hmem : route ∈ routesBelow depth paths := mem_routesBelow.mpr ⟨hroute, hne, hdepth⟩
  rw [hpaths'] at hmem
  exact List.not_mem_nil hmem

/-- The entries made from paths are those of a canonical level. -/
theorem canonical_entriesBelow (hparents : ∀ parent ∈ parents, Path.IsName parent)
    (hpaths : ∀ path ∈ paths, ∀ name ∈ path, Path.IsName name)
    (hdepth : ∀ path ∈ paths, path.length ≤ depth) :
    Level.Canonical ⟨parents.length, directoryPath parents,
      entriesBelow depth (Path.ofSegments parents) paths⟩ := by
  cases depth with
  | zero =>
    exact ⟨nofun, nofun, nofun, nofun, ⟨[], [], rfl, nofun, nofun, .nil, .nil⟩, nofun⟩
  | succ depth =>
    have hentries : ∀ node ∈ entriesBelow (depth + 1) (Path.ofSegments parents) paths,
        node.dependencies? = none ∧ Path.IsName node.name ∧
          node.path = Path.ofSegments (parents ++ [node.name]) ∧ node.files ≠ [] := by
      intro node hnode
      rcases mem_entriesBelow.mp hnode with ⟨name, hname, rfl⟩ | ⟨name, hname, rfl⟩
      · obtain ⟨route, hroute⟩ := mem_directoryNames.mp hname
        obtain ⟨hne, hpath⟩ := mem_pathsBelow.mp hroute
        have hown : Path.IsName name := isName_of_mem_directoryNames hpaths hname
        refine ⟨rfl, hown, pathBelow_ofSegments hparents name, ?_⟩
        rw [Node.files, pathBelow_ofSegments hparents]
        exact files_entriesBelow_ne_nil (isName_concat hparents hown)
          (isName_of_mem_pathsBelow hpaths) hroute hne
          (Nat.le_of_succ_le_succ (hdepth _ hpath))
      · have hown : Path.IsName name := hpaths _ (mem_fileNames.mp hname) name List.mem_cons_self
        exact ⟨rfl, hown, pathBelow_ofSegments hparents name, List.cons_ne_nil _ _⟩
    refine ⟨fun node hnode => (hentries node hnode).1,
      fun node hnode => (hentries node hnode).2.1.1,
      fun node hnode => ?_, fun node hnode => ?_, ?_, fun node hnode => (hentries node hnode).2.2.2⟩
    · rw [pathOf_directoryPath]
      exact (hentries node hnode).2.2.1
    · obtain ⟨-, hname, hpath, -⟩ := hentries node hnode
      have hslashes :=
        Path.depth_ofSegments (isName_concat hparents hname) (List.concat_ne_nil node.name parents)
      rw [List.length_append] at hslashes
      rw [hpath]
      exact Nat.succ.inj hslashes
    · refine ⟨_, _, rfl, fun node hnode => ?_, fun node hnode => ?_, ?_, ?_⟩
      · obtain ⟨name, -, rfl⟩ := List.mem_map.mp hnode
        rfl
      · obtain ⟨name, -, rfl⟩ := List.mem_map.mp hnode
        rfl
      · exact List.pairwise_map.mpr ((pairwise_lt_sortedNames _).imp bytesOf_lt)
      · exact List.pairwise_map.mpr ((pairwise_lt_sortedNames _).imp bytesOf_lt)

/-- The levels below the entries made from paths are canonical. -/
theorem canonical_of_mem_levelsBelow (hparents : ∀ parent ∈ parents, Path.IsName parent)
    (hpaths : ∀ path ∈ paths, ∀ name ∈ path, Path.IsName name)
    (hdepth : ∀ path ∈ paths, path.length ≤ depth)
    (hlevel :
      level ∈ (entriesBelow depth (Path.ofSegments parents) paths).levelsBelow parents.length) :
    level.Canonical := by
  induction depth generalizing parents paths with
  | zero => exact absurd hlevel List.not_mem_nil
  | succ depth ih =>
    rw [Tree.levelsBelow_eq_flatMap] at hlevel
    obtain ⟨node, hnode, hlevel⟩ := List.mem_flatMap.mp hlevel
    rcases mem_entriesBelow.mp hnode with ⟨name, hname, rfl⟩ | ⟨name, -, rfl⟩
    · have hnames : ∀ path ∈ pathsBelow name paths, ∀ part ∈ path, Path.IsName part :=
        isName_of_mem_pathsBelow hpaths
      have hlengths : ∀ path ∈ pathsBelow name paths, path.length ≤ depth := fun path hpath =>
        Nat.le_of_succ_le_succ (hdepth _ (mem_pathsBelow.mp hpath).2)
      have hparents' := isName_concat hparents (isName_of_mem_directoryNames hpaths hname)
      rw [Node.levels, pathBelow_ofSegments hparents, ← directoryPath_concat] at hlevel
      have hlength : parents.length + 1 = (parents ++ [name]).length := by
        rw [List.length_append, List.length_singleton]
      rw [hlength] at hlevel
      rcases List.mem_cons.mp hlevel with rfl | hlevel
      · exact canonical_entriesBelow hparents' hnames hlengths
      · exact ih hparents' hnames hlengths hlevel
    · exact absurd hlevel List.not_mem_nil

end

/-- **Every level of the tree of a list of paths is canonical.** -/
theorem Tree.canonical_of_mem_levels_ofPaths {paths : List String} {level : Level}
    (h : level ∈ (ofPaths paths).levels) : level.Canonical := by
  have hroot : ∀ parent ∈ ([] : List String), Path.IsName parent := nofun
  have hpaths : ∀ path ∈ paths.map Path.namedSegments, ∀ name ∈ path, Path.IsName name :=
    isName_of_mem_map_namedSegments
  have hdepth : ∀ path ∈ paths.map Path.namedSegments,
      path.length ≤ ((paths.map Path.namedSegments).map List.length).foldl max 0 :=
    fun path hpath =>
    (foldl_max_le_iff.mp (Nat.le_refl _)).2 _ (List.mem_map_of_mem hpath)
  rcases List.mem_cons.mp h with rfl | h
  · exact canonical_entriesBelow hroot hpaths hdepth
  · exact canonical_of_mem_levelsBelow hroot hpaths hdepth h

end ImportChart
