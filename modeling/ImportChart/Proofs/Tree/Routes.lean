import ImportChart.Proofs.Text.Segments
import ImportChart.Proofs.Tree.Depth
import ImportChart.Tree.Build
import Mathlib.Data.List.Nodup

/-!
# The files of the tree of a list of paths

A route is a path as the list of its names. `routesBelow` lists the routes of the files that
`entriesBelow` makes, with the same recursion and without the tree around them. They are the given
routes, each once (`mem_routesBelow`, `nodup_routesBelow`), and the file of a route stands as deep
as its path has slashes (`placedFiles_entriesBelow`).

For `Tree.ofPaths` this gives that no two files share a path, and that the depth at which a file
stands can be read off its path.
-/

namespace ImportChart

/-! ## The names of a level -/

@[simp] theorem mem_sortedNames {names : List String} {name : String} :
    name ∈ sortedNames names ↔ name ∈ names := by
  rw [sortedNames, List.mem_mergeSort, mem_firsts]

theorem nodup_sortedNames (names : List String) : (sortedNames names).Nodup :=
  (List.mergeSort_perm _ _).nodup_iff.mpr (nodup_firsts names)

variable {paths : List (List String)} {route parents : List String} {name : String}

theorem mem_fileNames : name ∈ fileNames paths ↔ [name] ∈ paths := by
  rw [fileNames, List.mem_filterMap]
  constructor
  · rintro ⟨path, hpath, hname⟩
    match path, hname with
    | [_], rfl => exact hpath
  · intro hpath
    exact ⟨[name], hpath, rfl⟩

theorem mem_pathsBelow : route ∈ pathsBelow name paths ↔ route ≠ [] ∧ name :: route ∈ paths := by
  rw [pathsBelow, List.mem_filterMap]
  constructor
  · rintro ⟨path, hpath, hroute⟩
    match path, hroute with
    | first :: second :: rest, hroute =>
      obtain ⟨rfl, heq⟩ := Option.ite_none_right_eq_some.mp hroute
      obtain rfl := Option.some.inj heq
      exact ⟨List.cons_ne_nil _ _, hpath⟩
  · rintro ⟨hne, hpath⟩
    obtain ⟨second, rest, rfl⟩ := List.exists_cons_of_ne_nil hne
    exact ⟨name :: second :: rest, hpath, if_pos rfl⟩

theorem mem_directoryNames :
    name ∈ directoryNames paths ↔ ∃ route, route ∈ pathsBelow name paths := by
  rw [directoryNames, List.mem_filterMap]
  constructor
  · rintro ⟨path, hpath, hname⟩
    match path, hname with
    | _ :: second :: rest, rfl =>
      exact ⟨second :: rest, mem_pathsBelow.mpr ⟨List.cons_ne_nil _ _, hpath⟩⟩
  · rintro ⟨route, hroute⟩
    obtain ⟨hne, hpath⟩ := mem_pathsBelow.mp hroute
    obtain ⟨second, rest, rfl⟩ := List.exists_cons_of_ne_nil hne
    exact ⟨name :: second :: rest, hpath, rfl⟩

/-! ## Routes -/

/-- The routes of the files made of paths, in the order of the tree. -/
def routesBelow : Nat → List (List String) → List (List String)
  | 0, _ => []
  | depth + 1, paths =>
    (sortedNames (directoryNames paths)).flatMap (fun name =>
      (routesBelow depth (pathsBelow name paths)).map (name :: ·)) ++
    (sortedNames (fileNames paths)).map fun name => [name]

/-- The routes are the paths that have a name and are not too long. -/
theorem mem_routesBelow {depth : Nat} :
    route ∈ routesBelow depth paths ↔ route ∈ paths ∧ route ≠ [] ∧ route.length ≤ depth := by
  induction depth generalizing paths route with
  | zero =>
    refine iff_of_false List.not_mem_nil fun ⟨_, hne, hle⟩ => hne ?_
    exact List.length_eq_zero_iff.mp (Nat.le_zero.mp hle)
  | succ depth ih =>
    rw [routesBelow, List.mem_append]
    constructor
    · rintro (hbelow | hfile)
      · obtain ⟨name, -, hmem⟩ := List.mem_flatMap.mp hbelow
        obtain ⟨rest, hrest, rfl⟩ := List.mem_map.mp hmem
        obtain ⟨hpath, -, hle⟩ := ih.mp hrest
        exact ⟨(mem_pathsBelow.mp hpath).2, List.cons_ne_nil _ _, Nat.succ_le_succ hle⟩
      · obtain ⟨name, hname, rfl⟩ := List.mem_map.mp hfile
        have hpath := mem_fileNames.mp (mem_sortedNames.mp hname)
        exact ⟨hpath, List.cons_ne_nil _ _, Nat.succ_le_succ (Nat.zero_le depth)⟩
    · rintro ⟨hpath, hne, hle⟩
      obtain ⟨name, rest, rfl⟩ := List.exists_cons_of_ne_nil hne
      by_cases hrest : rest = []
      · subst hrest
        exact .inr (List.mem_map.mpr ⟨name, mem_sortedNames.mpr (mem_fileNames.mpr hpath), rfl⟩)
      · have hbelow : rest ∈ pathsBelow name paths := mem_pathsBelow.mpr ⟨hrest, hpath⟩
        have hroute : rest ∈ routesBelow depth (pathsBelow name paths) :=
          ih.mpr ⟨hbelow, hrest, Nat.le_of_succ_le_succ hle⟩
        refine .inl (List.mem_flatMap.mpr ⟨name, ?_, List.mem_map_of_mem hroute⟩)
        exact mem_sortedNames.mpr (mem_directoryNames.mpr ⟨rest, hbelow⟩)

/-- No route comes twice. -/
theorem nodup_routesBelow (depth : Nat) (paths : List (List String)) :
    (routesBelow depth paths).Nodup := by
  induction depth generalizing paths with
  | zero => exact List.nodup_nil
  | succ depth ih =>
    rw [routesBelow]
    refine List.Nodup.append (List.nodup_flatMap.mpr ⟨fun name _ => ?_, ?_⟩) ?_ ?_
    · exact (ih (pathsBelow name paths)).map List.cons_injective
    · -- routes below different directories differ in their first name
      refine (nodup_sortedNames _).imp fun {name other} hne route hmem hother => hne ?_
      obtain ⟨_, -, rfl⟩ := List.mem_map.mp hmem
      obtain ⟨_, -, heq⟩ := List.mem_map.mp hother
      exact (List.cons.inj heq).1.symm
    · exact (nodup_sortedNames _).map fun _ _ heq => (List.cons.inj heq).1
    · -- a route below a directory has a second name
      intro route hbelow hfile
      obtain ⟨name, -, hmem⟩ := List.mem_flatMap.mp hbelow
      obtain ⟨rest, hrest, rfl⟩ := List.mem_map.mp hmem
      obtain ⟨_, -, heq⟩ := List.mem_map.mp hfile
      exact (mem_routesBelow.mp hrest).2.1 (List.cons.inj heq).2.symm

/-! ## The files of the routes -/

/-- The file of a route from the root, as deep as it has names above its own. -/
def PlacedFile.ofRoute (route : List String) : PlacedFile :=
  ⟨route.length - 1, Path.ofSegments route, none⟩

theorem isName_concat (hparents : ∀ parent ∈ parents, Path.IsName parent)
    (hname : Path.IsName name) :
    ∀ part ∈ parents ++ [name], Path.IsName part := by
  intro part hpart
  rcases List.mem_append.mp hpart with hpart | hpart
  · exact hparents part hpart
  · rw [List.mem_singleton.mp hpart]
    exact hname

/-- What stands below a directory is made of names if all paths are. -/
theorem isName_of_mem_pathsBelow (hpaths : ∀ path ∈ paths, ∀ part ∈ path, Path.IsName part) :
    ∀ path ∈ pathsBelow name paths, ∀ part ∈ path, Path.IsName part :=
  fun _ hpath part hpart =>
    hpaths _ (mem_pathsBelow.mp hpath).2 part (List.mem_cons_of_mem name hpart)

theorem isName_of_mem_directoryNames (hpaths : ∀ path ∈ paths, ∀ part ∈ path, Path.IsName part)
    (h : name ∈ directoryNames paths) : Path.IsName name := by
  obtain ⟨route, hroute⟩ := mem_directoryNames.mp h
  exact hpaths _ (mem_pathsBelow.mp hroute).2 name List.mem_cons_self

theorem isName_of_mem_map_namedSegments {given : List String} :
    ∀ path ∈ given.map Path.namedSegments, ∀ part ∈ path, Path.IsName part := by
  intro path hpath part hpart
  obtain ⟨_, -, rfl⟩ := List.mem_map.mp hpath
  exact Path.isName_of_mem_namedSegments hpart

/-- A path below a directory has the names of the directory and one more. -/
theorem pathBelow_ofSegments (hparents : ∀ parent ∈ parents, Path.IsName parent) (name : String) :
    pathBelow (Path.ofSegments parents) name = Path.ofSegments (parents ++ [name]) := by
  by_cases hroot : parents = []
  · rw [hroot]
    rfl
  · have hnil : ∀ part ∈ ([] : List String), Path.IsName part := nofun
    have hne : Path.ofSegments parents ≠ "" :=
      fun heq => hroot (Path.ofSegments_inj hparents hnil heq)
    rw [pathBelow, if_neg hne, Path.ofSegments_concat hroot, String.append_assoc]

theorem Tree.placedFiles_eq_flatMap (depth : Nat) (tree : Tree) :
    Tree.placedFiles depth tree = tree.flatMap (Node.placedFiles depth) := by
  induction tree with
  | nil => rfl
  | cons node rest ih => rw [placedFiles, ih, List.flatMap_cons]

/-- The files of a directory are those of the routes below it. -/
theorem placedFiles_entriesBelow (depth : Nat) (hparents : ∀ parent ∈ parents, Path.IsName parent)
    (hpaths : ∀ path ∈ paths, ∀ name ∈ path, Path.IsName name) :
    Tree.placedFiles parents.length (entriesBelow depth (Path.ofSegments parents) paths) =
      (routesBelow depth paths).map fun route => .ofRoute (parents ++ route) := by
  induction depth generalizing parents paths with
  | zero => rfl
  | succ depth ih =>
    rw [entriesBelow, routesBelow, Tree.placedFiles_append, List.map_append]
    refine congrArg₂ (· ++ ·) ?_ ?_
    · rw [Tree.placedFiles_eq_flatMap, List.flatMap_map, List.map_flatMap]
      refine List.flatMap_congr fun name hname => ?_
      have hown : Path.IsName name := isName_of_mem_directoryNames hpaths (mem_sortedNames.mp hname)
      have hbelow : Tree.placedFiles (parents ++ [name]).length
          (entriesBelow depth (Path.ofSegments (parents ++ [name])) (pathsBelow name paths)) =
            (routesBelow depth (pathsBelow name paths)).map fun route =>
              .ofRoute (parents ++ [name] ++ route) :=
        ih (isName_concat hparents hown) (isName_of_mem_pathsBelow hpaths)
      rw [List.length_append, ← pathBelow_ofSegments hparents] at hbelow
      rw [List.map_map, Node.placedFiles]
      refine hbelow.trans (List.map_congr_left fun route _ => ?_)
      rw [List.append_assoc]
      rfl
    · rw [Tree.placedFiles_eq_flatMap, List.flatMap_map, List.map_map, List.map_eq_flatMap]
      refine List.flatMap_congr fun name _ => ?_
      rw [Node.placedFiles, Function.comp_apply, PlacedFile.ofRoute, pathBelow_ofSegments hparents,
        List.length_append]
      rfl

namespace Tree

/-- The routes of the files of the tree of a list of paths. -/
def routes (paths : List String) : List (List String) :=
  let segments := paths.map Path.namedSegments
  routesBelow ((segments.map List.length).foldl max 0) segments

theorem isName_of_mem_routes {paths : List String} {route : List String}
    (h : route ∈ routes paths) :
    ∀ name ∈ route, Path.IsName name :=
  isName_of_mem_map_namedSegments route (mem_routesBelow.mp h).1

/-- The files of the tree of a list of paths are those of the routes. -/
theorem placedFiles_ofPaths (paths : List String) :
    placedFiles 0 (ofPaths paths) = (routes paths).map PlacedFile.ofRoute := by
  have hroot : ∀ parent ∈ ([] : List String), Path.IsName parent := nofun
  exact placedFiles_entriesBelow _ hroot isName_of_mem_map_namedSegments

/-- No two files of the tree of a list of paths share a path. -/
theorem nodup_filePaths_ofPaths (paths : List String) : (ofPaths paths).filePaths.Nodup := by
  rw [← map_path_placedFiles 0, placedFiles_ofPaths, List.map_map]
  refine List.Nodup.map_on (fun route hroute other hother heq => ?_) (nodup_routesBelow _ _)
  exact Path.ofSegments_inj (isName_of_mem_routes hroute) (isName_of_mem_routes hother) heq

/-- A file of the tree of a list of paths stands as deep as its path has slashes. -/
theorem depth_of_mem_placedFiles_ofPaths {paths : List String} {file : PlacedFile}
    (h : file ∈ placedFiles 0 (ofPaths paths)) : file.depth = Path.depth file.path := by
  rw [placedFiles_ofPaths] at h
  obtain ⟨route, hroute, rfl⟩ := List.mem_map.mp h
  have hne : route ≠ [] := (mem_routesBelow.mp hroute).2.1
  have hdepth := Path.depth_ofSegments (isName_of_mem_routes hroute) hne
  exact (Nat.eq_sub_of_add_eq hdepth).symm

end Tree

end ImportChart
