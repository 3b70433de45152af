import ImportChart.Proofs.Tree.Depth
import ImportChart.Analysis

/-!
# What annotation keeps and what it changes

The shape of a tree is the tree without the dependencies of its files (`Tree.bare`). Annotation
keeps the shape, and what it writes depends on the shape alone (`Tree.annotateWith_bare`): what a
file carried before is replaced. Both together say that annotating once more changes nothing.

What a file carries afterwards is said of the list apart from the search in it: `ListedFor` is the
dependencies of the last file listed for a path, or none.

An analysis reads of its tree the paths of the files, and annotates it. So it sees nothing but the
shape (`Snapshot.analyze_congr_bare`), and a tree that has been decorated before is as good as a
bare one.
-/

namespace ImportChart

mutual
/-- A node whose files carry no dependencies. -/
def Node.bare : Node → Node
  | .file name path _ => .file name path none
  | .directory name path children => .directory name path (Tree.bare children)
/-- The shape of a tree: its nodes without the dependencies of the files. -/
def Tree.bare : Tree → Tree
  | [] => []
  | node :: rest => node.bare :: Tree.bare rest
end

/-! ## What is listed for a path -/

/-- The dependencies that a list of files has for a path: those of the last file with this path, and
none if there is no such file. -/
inductive ListedFor (path : String) : List ResolvedFile → List Dependency → Prop where
  | last {before after : List ResolvedFile} {file : ResolvedFile} (path_eq : file.path = path)
      (later_ne : ∀ later ∈ after, later.path ≠ path) :
      ListedFor path (before ++ file :: after) file.dependencies
  | missing {files : List ResolvedFile} (ne : ∀ file ∈ files, file.path ≠ path) :
      ListedFor path files []

/-- Behind the last file with a path, the search for it goes on to this file. -/
theorem dependenciesAt_append_cons {path : String} {before after : List ResolvedFile}
    {file : ResolvedFile} (hpath : file.path = path) (hlater : ∀ later ∈ after, later.path ≠ path) :
    dependenciesAt (before ++ file :: after) path = file.dependencies := by
  have hafter : after.reverse.find? (fun file => decide (file.path = path)) = none :=
    List.find?_eq_none.mpr fun later hmem htrue =>
      hlater later (List.mem_reverse.mp hmem) (of_decide_eq_true htrue)
  have hself : [file].find? (fun file => decide (file.path = path)) = some file :=
    List.find?_cons_of_pos (decide_eq_true hpath)
  rw [dependenciesAt, List.reverse_append, List.reverse_cons, List.find?_append, List.find?_append,
    hafter, Option.none_or, hself, Option.some_or]
  rfl

/-- What is found for a path is what is listed for it. -/
theorem listedFor_dependenciesAt (files : List ResolvedFile) (path : String) :
    ListedFor path files (dependenciesAt files path) := by
  by_cases hlisted : path ∈ files.map ResolvedFile.path
  · -- the first file from the end that has the path splits the list
    obtain ⟨given, hgiven, hpath⟩ := List.mem_map.mp hlisted
    have hsome : (files.reverse.find? fun file => decide (file.path = path)).isSome = true :=
      List.find?_isSome.mpr ⟨given, List.mem_reverse.mpr hgiven, decide_eq_true hpath⟩
    obtain ⟨file, hfound⟩ := Option.isSome_iff_exists.mp hsome
    obtain ⟨htrue, behind, ahead, hsplit, hbehind⟩ := List.find?_eq_some_iff_append.mp hfound
    have hfile : file.path = path := of_decide_eq_true htrue
    have hfiles : files = ahead.reverse ++ file :: behind.reverse := by
      rw [← List.reverse_reverse files, hsplit, List.reverse_append, List.reverse_cons,
        List.append_assoc]
      rfl
    have hlater : ∀ later ∈ behind.reverse, later.path ≠ path := by
      intro later hmem heq
      have hfalse := hbehind later (List.mem_reverse.mp hmem)
      rw [decide_eq_true heq] at hfalse
      cases hfalse
    rw [hfiles, dependenciesAt_append_cons hfile hlater]
    exact .last hfile hlater
  · rw [dependenciesAt_of_not_mem hlisted]
    exact .missing fun file hfile heq => hlisted (List.mem_map.mpr ⟨file, hfile, heq⟩)

/-! ## The shape of an annotated tree -/

section

variable (dependenciesOf : String → List Dependency)

mutual
/-- Annotation keeps the shape of a node. -/
theorem Node.bare_annotate : (node : Node) → (node.annotate dependenciesOf).bare = node.bare
  | .file .. => rfl
  | .directory name path children => by
    rw [Node.annotate, Node.bare, Node.bare, Tree.bare_annotateWith children]
/-- Annotation keeps the shape of a tree. -/
theorem Tree.bare_annotateWith :
    (tree : Tree) → (Tree.annotateWith dependenciesOf tree).bare = tree.bare
  | [] => rfl
  | node :: rest => by
    rw [Tree.annotateWith, Tree.bare, Tree.bare, node.bare_annotate, Tree.bare_annotateWith rest]
end

mutual
/-- What annotation writes at and below a node depends on its shape. -/
theorem Node.annotate_bare :
    (node : Node) → node.bare.annotate dependenciesOf = node.annotate dependenciesOf
  | .file .. => rfl
  | .directory name path children => by
    rw [Node.bare, Node.annotate, Node.annotate, Tree.annotateWith_bare children]
/-- What annotation writes into a tree depends on its shape. -/
theorem Tree.annotateWith_bare :
    (tree : Tree) → tree.bare.annotateWith dependenciesOf = tree.annotateWith dependenciesOf
  | [] => rfl
  | node :: rest => by
    rw [Tree.bare, Tree.annotateWith, Tree.annotateWith, node.annotate_bare,
      Tree.annotateWith_bare rest]
end

mutual
/-- The files at and below an annotated node are its files with the dependencies given for their
paths. -/
theorem Node.files_annotate :
    (node : Node) → (node.annotate dependenciesOf).files =
      node.files.map (Node.annotate dependenciesOf)
  | .file .. => rfl
  | .directory _ _ children => Tree.files_annotateWith children
/-- The files of an annotated tree are those of the tree with the dependencies given for their
paths. -/
theorem Tree.files_annotateWith :
    (tree : Tree) → (tree.annotateWith dependenciesOf).files =
      tree.files.map (Node.annotate dependenciesOf)
  | [] => rfl
  | node :: rest => by
    rw [Tree.annotateWith, Tree.files, Tree.files, node.files_annotate,
      Tree.files_annotateWith rest, List.map_append]
end

end

mutual
/-- The paths of the files at and below a node depend on its shape. -/
theorem Node.map_path_files_bare :
    (node : Node) → node.bare.files.map Node.path = node.files.map Node.path
  | .file .. => rfl
  | .directory _ _ children => Tree.filePaths_bare children
/-- The paths of the files of a tree depend on its shape. -/
theorem Tree.filePaths_bare : (tree : Tree) → tree.bare.filePaths = tree.filePaths
  | [] => rfl
  | node :: rest => by
    have hnode := node.map_path_files_bare
    have hrest := Tree.filePaths_bare rest
    rw [Tree.filePaths, Tree.filePaths] at hrest ⊢
    rw [Tree.bare, Tree.files, Tree.files, List.map_append, List.map_append, hnode, hrest]
end

mutual
/-- What `Node.files` lists are files. -/
theorem Node.isFile_of_mem_files {file : Node} :
    (node : Node) → file ∈ node.files → file.isFile = true
  | .file .., h => by
    rw [List.mem_singleton.mp h]
    rfl
  | .directory _ _ children, h => Tree.isFile_of_mem_files children h
/-- What `Tree.files` lists are files. -/
theorem Tree.isFile_of_mem_files {file : Node} :
    (tree : Tree) → file ∈ tree.files → file.isFile = true
  | [], h => absurd h List.not_mem_nil
  | node :: rest, h =>
    (List.mem_append.mp h).elim (Node.isFile_of_mem_files node) (Tree.isFile_of_mem_files rest)
end

/-- An annotated file carries what is given for its path. -/
theorem Node.dependencies?_annotate (dependenciesOf : String → List Dependency) {node : Node}
    (h : node.isFile = true) :
    (node.annotate dependenciesOf).dependencies? =
      some (dependenciesOf (node.annotate dependenciesOf).path) := by
  cases node with
  | file name path dependencies => rfl
  | directory name path children => cases h

namespace Tree

variable {tree other : Tree} {files : List ResolvedFile}

/-- Trees of one shape are annotated alike. -/
theorem annotate_congr (h : tree.bare = other.bare) (files : List ResolvedFile) :
    tree.annotate files = other.annotate files := by
  rw [annotate, annotate, ← annotateWith_bare, h, annotateWith_bare]

end Tree

/-- An analysis sees the shape of the tree alone. -/
theorem Snapshot.analyze_congr_bare {tree other : Tree} (h : tree.bare = other.bare)
    (contents : Table String String) (settings : AnalysisSettings) :
    Snapshot.analyze ⟨tree, contents⟩ settings = Snapshot.analyze ⟨other, contents⟩ settings := by
  have hpaths : tree.filePaths = other.filePaths := by
    rw [← Tree.filePaths_bare, h, Tree.filePaths_bare]
  have hanalyzed : Snapshot.analyzed ⟨tree, contents⟩ settings =
      Snapshot.analyzed ⟨other, contents⟩ settings := by
    rw [analyzed, analyzed, selected, selected, hpaths]
  have hparse : Snapshot.parseFile ⟨tree, contents⟩ = Snapshot.parseFile ⟨other, contents⟩ := rfl
  rw [analyze, analyze, hanalyzed, hparse, hpaths, Tree.annotate_congr h]

/-- **Annotation decorates a tree and changes nothing else.** For every list of files and every
tree, decorated before or not: the shape stays, at every depth; each file of the result carries what
is listed for its path, whatever it carried before; annotating again with the same files changes
nothing; and an analysis of the decorated tree, with any contents and settings, is the analysis of
the tree. -/
theorem Tree.annotate_decorates (tree : Tree) (files : List ResolvedFile) :
    (tree.annotate files).bare = tree.bare ∧
      (∀ node ∈ (tree.annotate files).files, ∃ dependencies,
        node.dependencies? = some dependencies ∧ ListedFor node.path files dependencies) ∧
      (∀ other : Tree, other.bare = tree.bare → other.annotate files = tree.annotate files) ∧
      (tree.annotate files).annotate files = tree.annotate files ∧
      ∀ (contents : Table String String) (settings : AnalysisSettings),
        Snapshot.analyze ⟨tree.annotate files, contents⟩ settings =
          Snapshot.analyze ⟨tree, contents⟩ settings := by
  have hbare : (tree.annotate files).bare = tree.bare := bare_annotateWith _ tree
  refine ⟨hbare, fun node hnode => ?_, fun other h => annotate_congr h files,
    annotate_congr hbare files, Snapshot.analyze_congr_bare hbare⟩
  rw [annotate, files_annotateWith] at hnode
  obtain ⟨file, hfile, rfl⟩ := List.mem_map.mp hnode
  exact ⟨_, Node.dependencies?_annotate _ (isFile_of_mem_files tree hfile),
    listedFor_dependenciesAt files _⟩

end ImportChart
