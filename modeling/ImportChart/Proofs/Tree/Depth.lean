import ImportChart.Graph
import Mathlib.Data.List.Nodup

/-!
# The depths of files

`Tree.placedFiles` lists every file of a tree together with the number of directories above it. The
files that options admit (`Tree.filesWithin`) are collected by a walk that turns back at the first
directory whose entries are too deep; `Tree.filesWithin_eq` says that this is no more than leaving
out, from the list of all files, those that are too deep or not annotated.
-/

namespace ImportChart

/-- A file of a tree with the number of directories above it, and its dependencies if it is
annotated. -/
structure PlacedFile where
  depth : Nat
  path : String
  dependencies? : Option (List Dependency)
  deriving DecidableEq, Repr

/-- The path and the dependencies of an annotated file. -/
def PlacedFile.annotated? (file : PlacedFile) : Option (String × List Dependency) :=
  file.dependencies?.map fun dependencies => (file.path, dependencies)

/-- A file with the dependencies that `dependenciesOf` gives for its path. -/
def PlacedFile.annotate (dependenciesOf : String → List Dependency)
    (file : PlacedFile) : PlacedFile :=
  { file with dependencies? := some (dependenciesOf file.path) }

mutual
/-- The files at and below a node at a depth, in the order of the tree. -/
def Node.placedFiles (depth : Nat) : Node → List PlacedFile
  | .file _ path dependencies => [⟨depth, path, dependencies⟩]
  | .directory _ _ children => Tree.placedFiles (depth + 1) children
/-- The files of the nodes at a depth, in the order of the tree. -/
def Tree.placedFiles (depth : Nat) : Tree → List PlacedFile
  | [] => []
  | node :: rest => node.placedFiles depth ++ Tree.placedFiles depth rest
end

theorem Tree.placedFiles_append (depth : Nat) (tree more : Tree) :
    Tree.placedFiles depth (tree ++ more) =
      Tree.placedFiles depth tree ++ Tree.placedFiles depth more := by
  induction tree with
  | nil => rfl
  | cons node rest ih => rw [List.cons_append, placedFiles, placedFiles, ih, List.append_assoc]

mutual
/-- The files at and below a node are those that the node has without regard to depth. -/
theorem Node.map_path_placedFiles (depth : Nat) :
    (node : Node) → (node.placedFiles depth).map PlacedFile.path = node.files.map Node.path
  | .file .. => rfl
  | .directory _ _ children => Tree.map_path_placedFiles (depth + 1) children
/-- The files of a tree are those that it has without regard to depth. -/
theorem Tree.map_path_placedFiles (depth : Nat) :
    (tree : Tree) → (Tree.placedFiles depth tree).map PlacedFile.path = tree.filePaths
  | [] => rfl
  | node :: rest => by
    have hnode := node.map_path_placedFiles depth
    have hrest := Tree.map_path_placedFiles depth rest
    rw [Tree.placedFiles, List.map_append, hnode, hrest, Tree.filePaths, Tree.filePaths, Tree.files,
      List.map_append]
end

/-! ## Annotation -/

section Annotation

variable {files : List ResolvedFile}

/-- A path that is not listed has no dependencies. -/
theorem dependenciesAt_of_not_mem {path : String} (h : path ∉ files.map ResolvedFile.path) :
    dependenciesAt files path = [] := by
  have hnone : files.reverse.find? (fun file => decide (file.path = path)) = none := by
    refine List.find?_eq_none.mpr fun file hfile htrue => h ?_
    exact List.mem_map.mpr ⟨file, List.mem_reverse.mp hfile, of_decide_eq_true htrue⟩
  rw [dependenciesAt, hnone]
  rfl

/-- A file listed under a path of its own has its dependencies there. -/
theorem dependenciesAt_of_mem (hnodup : (files.map ResolvedFile.path).Nodup) {file : ResolvedFile}
    (h : file ∈ files) : dependenciesAt files file.path = file.dependencies := by
  have hfound : files.reverse.find? (fun other => decide (other.path = file.path)) = some file := by
    cases hother : files.reverse.find? fun other => decide (other.path = file.path) with
    | none =>
      exact absurd (decide_eq_true rfl) (List.find?_eq_none.mp hother file (List.mem_reverse.mpr h))
    | some other =>
      have htrue := List.find?_some hother
      have hpath : other.path = file.path := of_decide_eq_true htrue
      have hmem : other ∈ files := List.mem_reverse.mp (List.mem_of_find?_eq_some hother)
      rw [List.inj_on_of_nodup_map hnodup hmem h hpath]
  rw [dependenciesAt, hfound]
  rfl

end Annotation

mutual
/-- Annotation changes the dependencies of the files at and below a node, and nothing else about
them. -/
theorem Node.placedFiles_annotate (dependenciesOf : String → List Dependency) (depth : Nat) :
    (node : Node) → (node.annotate dependenciesOf).placedFiles depth =
      (node.placedFiles depth).map (PlacedFile.annotate dependenciesOf)
  | .file .. => rfl
  | .directory _ _ children => Tree.placedFiles_annotateWith dependenciesOf (depth + 1) children
/-- Annotation changes the dependencies of the files of a tree, and nothing else about them. -/
theorem Tree.placedFiles_annotateWith (dependenciesOf : String → List Dependency) (depth : Nat) :
    (tree : Tree) → (Tree.annotateWith dependenciesOf tree).placedFiles depth =
      (Tree.placedFiles depth tree).map (PlacedFile.annotate dependenciesOf)
  | [] => rfl
  | node :: rest => by
    have hnode := node.placedFiles_annotate dependenciesOf depth
    have hrest := Tree.placedFiles_annotateWith dependenciesOf depth rest
    rw [Tree.annotateWith, Tree.placedFiles, Tree.placedFiles, hnode, hrest, List.map_append]
end

/-! ## Depth limits -/

mutual
/-- No file at or below a node is above it. -/
theorem Node.le_depth_of_mem_placedFiles {file : PlacedFile} (depth : Nat) :
    (node : Node) → file ∈ node.placedFiles depth → depth ≤ file.depth
  | .file .., h => Nat.le_of_eq (congrArg PlacedFile.depth (List.mem_singleton.mp h)).symm
  | .directory _ _ children, h =>
    Nat.le_of_succ_le (Tree.le_depth_of_mem_placedFiles (depth + 1) children h)
/-- No file of nodes at a depth is above that depth. -/
theorem Tree.le_depth_of_mem_placedFiles {file : PlacedFile} (depth : Nat) :
    (tree : Tree) → file ∈ Tree.placedFiles depth tree → depth ≤ file.depth
  | [], h => absurd h List.not_mem_nil
  | node :: rest, h =>
    (List.mem_append.mp h).elim (node.le_depth_of_mem_placedFiles depth)
      (Tree.le_depth_of_mem_placedFiles depth rest)
end

namespace RenderOptions

variable {options : RenderOptions} {depth deeper : Nat}

/-- A depth above one that is admitted is admitted. -/
theorem admitsDepth_of_le (hle : depth ≤ deeper) (h : options.admitsDepth deeper = true) :
    options.admitsDepth depth = true := by
  rw [admitsDepth, Option.all_eq_true] at h ⊢
  intro limit hlimit
  have hdeeper : deeper ≤ limit := of_decide_eq_true (h limit hlimit)
  exact decide_eq_true (Nat.le_trans hle hdeeper)

/-- The annotated files among those at admitted depths. -/
def admitted (options : RenderOptions) (files : List PlacedFile) :
    List (String × List Dependency) :=
  (files.filter fun file => options.admitsDepth file.depth).filterMap PlacedFile.annotated?

theorem admitted_append (options : RenderOptions) (files more : List PlacedFile) :
    options.admitted (files ++ more) = options.admitted files ++ options.admitted more := by
  rw [admitted, List.filter_append, List.filterMap_append]
  rfl

theorem admitted_singleton {file : PlacedFile} (h : options.admitsDepth file.depth = true) :
    options.admitted [file] = file.annotated?.toList := by
  have hself : [file].filter (fun file => options.admitsDepth file.depth) = [file] :=
    List.filter_eq_self.mpr fun other hother => by rw [List.mem_singleton.mp hother, h]
  rw [admitted, hself]
  cases hannotated : file.annotated? with
  | none => exact List.filterMap_cons_none hannotated
  | some annotated => exact List.filterMap_cons_some hannotated

/-- Nothing of a tree is admitted whose nodes are too deep. -/
theorem admitted_placedFiles_of_not (h : options.admitsDepth depth = false) (tree : Tree) :
    options.admitted (Tree.placedFiles depth tree) = [] := by
  have hnone :
      (Tree.placedFiles depth tree).filter (fun file => options.admitsDepth file.depth) = [] := by
    refine List.filter_eq_nil_iff.mpr fun file hfile hadmits => ?_
    have habove := admitsDepth_of_le (Tree.le_depth_of_mem_placedFiles depth tree hfile) hadmits
    rw [h] at habove
    exact absurd habove Bool.false_ne_true
  rw [admitted, hnone, List.filterMap_nil]

end RenderOptions

mutual
/-- The files that a walk from a node at an admitted depth collects. -/
theorem Node.filesWithin_eq {options : RenderOptions} {depth : Nat}
    (h : options.admitsDepth depth = true) :
    (node : Node) → node.filesWithin options depth = options.admitted (node.placedFiles depth)
  | .file _ path none => by
    have hfile : options.admitsDepth (PlacedFile.depth ⟨depth, path, none⟩) = true := h
    exact (RenderOptions.admitted_singleton hfile).symm
  | .file _ path (some dependencies) => by
    have hfile : options.admitsDepth (PlacedFile.depth ⟨depth, path, some dependencies⟩) = true := h
    exact (RenderOptions.admitted_singleton hfile).symm
  | .directory _ _ children => by
    rw [Node.filesWithin, Node.placedFiles]
    by_cases hbelow : options.admitsDepth (depth + 1) = true
    · rw [if_pos hbelow, Tree.filesWithin_eq hbelow children]
    · rw [if_neg hbelow, RenderOptions.admitted_placedFiles_of_not (Bool.eq_false_iff.mpr hbelow)]
/-- The files that a walk over nodes at an admitted depth collects. -/
theorem Tree.filesWithin_eq {options : RenderOptions} {depth : Nat}
    (h : options.admitsDepth depth = true) :
    (tree : Tree) → Tree.filesWithin options depth tree =
      options.admitted (Tree.placedFiles depth tree)
  | [] => rfl
  | node :: rest => by
    rw [Tree.filesWithin, Tree.placedFiles, RenderOptions.admitted_append, node.filesWithin_eq h,
      Tree.filesWithin_eq h rest]
end

namespace GraphInput

/-- Every file of an input, in order, with its depth. -/
def placedFiles : GraphInput → List PlacedFile
  | tree roots => Tree.placedFiles 0 roots
  | files table => table.map fun file => ⟨Path.depth file.1, file.1, some file.2⟩

/-- The files of an input are collected as if each were looked at by itself. -/
theorem filesWithin_eq (options : RenderOptions) (input : GraphInput) :
    input.filesWithin options = options.admitted input.placedFiles := by
  cases input with
  | tree roots =>
    rw [filesWithin, placedFiles]
    by_cases hroot : options.admitsDepth 0 = true
    · rw [if_pos hroot, Tree.filesWithin_eq hroot]
    · rw [if_neg hroot, RenderOptions.admitted_placedFiles_of_not (Bool.eq_false_iff.mpr hroot)]
  | files table =>
    rw [filesWithin, placedFiles, RenderOptions.admitted, List.filter_map, List.filterMap_map]
    exact (List.filterMap_some).symm

end GraphInput

end ImportChart
