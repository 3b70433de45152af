import ImportChart.Proofs.Tree.Canonical
import Mathlib.Data.List.Induction

/-!
# A tree made path by path

`Tree.ofPaths` makes a tree level by level, each level from all the paths at once. It can be made
path by path as well: a `Folder` is a directory while this goes on, and `Folder.insert` puts the
file of one path into it and makes the directories on the way that are not there yet. Both ways come
to one tree (`Tree.ofPaths_eq_toTree`).

An insertion changes one entry of each folder on its way, at the place of its name or at the place
where the name belongs (`Folder.insert_ofLevel`). So after any number of insertions a folder holds
the names of the level in order, and under the name of a directory what the paths below it make
(`Folder.ofRoutes_eq`). No induction over folders is needed, for the paths say how deep they are.
-/

namespace ImportChart

/-- A directory while a tree is made: its directories by their names, and the names of its files.
Both are in order. -/
inductive Folder where
  | mk (directories : List (String × Folder)) (files : List String)

/-- Enters a name among names in order, unless it is there. -/
def insertName (name : String) : List String → List String
  | [] => [name]
  | first :: rest =>
    if first < name then first :: insertName name rest
    else if first = name then first :: rest
    else name :: first :: rest

namespace Folder

/-- A directory with nothing in it. -/
def empty : Folder :=
  mk [] []

/-- Changes the folder of a name among folders in order. A folder that is not there is made
empty. -/
def change (name : String) (f : Folder → Folder) : List (String × Folder) → List (String × Folder)
  | [] => [(name, f empty)]
  | (first, folder) :: rest =>
    if first < name then (first, folder) :: change name f rest
    else if first = name then (first, f folder) :: rest
    else (name, f empty) :: (first, folder) :: rest

/-- Puts a file into a folder. A path without a name is that of no file. -/
def insert : List String → Folder → Folder
  | [], folder => folder
  | [name], mk directories files => mk directories (insertName name files)
  | name :: next :: rest, mk directories files =>
    mk (change name (insert (next :: rest)) directories) files

/-- The folder that comes about as files are put into an empty one. -/
def ofRoutes (routes : List (List String)) : Folder :=
  routes.foldl (fun folder route => folder.insert route) empty

mutual
/-- The nodes of a folder that is the directory at `parent`. -/
def toTree (parent : String) : Folder → Tree
  | mk directories files =>
    nodes parent directories ++ files.map fun name => .file name (pathBelow parent name) none
/-- The nodes of the folders of a directory. -/
def nodes (parent : String) : List (String × Folder) → Tree
  | [] => []
  | (name, folder) :: rest =>
    .directory name (pathBelow parent name) (folder.toTree (pathBelow parent name)) ::
      nodes parent rest
end

end Folder

/-! ## Names in order -/

section Names

variable {name other : String} {names : List String}

theorem mem_insertName : other ∈ insertName name names ↔ other = name ∨ other ∈ names := by
  induction names with
  | nil => rw [insertName, List.mem_singleton, or_iff_left List.not_mem_nil]
  | cons first rest ih =>
    rw [insertName]
    split
    · rw [List.mem_cons, ih, List.mem_cons, or_left_comm]
    · split
      · next heq => rw [heq, List.mem_cons, or_self_left]
      · rw [List.mem_cons]

/-- A name that is neither before another nor the same comes behind it. -/
theorem lt_of_not_lt_of_ne (hlt : ¬ other < name) (hne : other ≠ name) : name < other :=
  Std.lt_of_le_of_ne (Std.not_lt.mp hlt) hne.symm

theorem pairwise_insertName (h : names.Pairwise (· < ·)) :
    (insertName name names).Pairwise (· < ·) := by
  induction names with
  | nil => exact List.pairwise_singleton _ _
  | cons first rest ih =>
    obtain ⟨hfirst, hrest⟩ := List.pairwise_cons.mp h
    rw [insertName]
    split
    · next hlt =>
      refine List.pairwise_cons.mpr ⟨fun other hother => ?_, ih hrest⟩
      rcases mem_insertName.mp hother with rfl | hother
      · exact hlt
      · exact hfirst other hother
    · next hlt =>
      split
      · exact h
      · next hne =>
        have hbefore := lt_of_not_lt_of_ne hlt hne
        refine List.pairwise_cons.mpr ⟨fun other hother => ?_, h⟩
        rcases List.mem_cons.mp hother with rfl | hother
        · exact hbefore
        · exact Std.lt_trans hbefore (hfirst other hother)

theorem sortedNames_nil : sortedNames [] = [] :=
  sortedNames_eq_of_pairwise (fun _ => Iff.rfl) .nil

/-- To enter a name among sorted names is to sort them with the name. -/
theorem insertName_sortedNames (name : String) (names : List String) :
    insertName name (sortedNames names) = sortedNames (names ++ [name]) := by
  refine (sortedNames_eq_of_pairwise (fun other => ?_) ?_).symm
  · rw [mem_insertName, mem_sortedNames, List.mem_append, List.mem_singleton, or_comm]
  · exact pairwise_insertName (pairwise_lt_sortedNames names)

end Names

/-! ## Insertion -/

namespace Folder

variable {name : String} {names : List String} {routes : List (List String)}

/-- A change among folders that are known by their names changes what is known of one name. -/
theorem change_map (f : Folder → Folder) (g : String → Folder) (hsorted : names.Pairwise (· < ·))
    (hnew : name ∉ names → g name = empty) :
    change name f (names.map fun other => (other, g other)) =
      (insertName name names).map fun other =>
        (other, if other = name then f (g name) else g other) := by
  -- what has another name is left as it is
  have hkeep : ∀ others : List String, name ∉ others →
      (others.map fun other => (other, if other = name then f (g name) else g other)) =
        others.map fun other => (other, g other) := by
    intro others hname
    refine List.map_congr_left fun other hother => ?_
    rw [if_neg fun heq : other = name => hname (heq ▸ hother)]
  induction names with
  | nil =>
    rw [List.map_nil, change, insertName, List.map_singleton, if_pos rfl, hnew List.not_mem_nil]
  | cons first rest ih =>
    obtain ⟨hfirst, hrest⟩ := List.pairwise_cons.mp hsorted
    rw [List.map_cons, change, insertName]
    by_cases hlt : first < name
    · have hne : first ≠ name := fun heq => Std.lt_irrefl (heq ▸ hlt)
      have hmore :=
        ih hrest fun hname => hnew fun hmem => hname ((List.mem_cons.mp hmem).resolve_left hne.symm)
      rw [if_pos hlt, if_pos hlt, List.map_cons, if_neg hne, hmore]
    rw [if_neg hlt, if_neg hlt]
    by_cases heq : first = name
    · subst heq
      rw [if_pos rfl, if_pos rfl, List.map_cons, if_pos rfl,
        hkeep rest fun hmem => Std.lt_irrefl (hfirst _ hmem)]
    · have hname : name ∉ first :: rest := by
        intro hmem
        rcases List.mem_cons.mp hmem with rfl | hmem
        · exact heq rfl
        · exact hlt (hfirst name hmem)
      rw [if_neg heq, if_neg heq, List.map_cons, if_pos rfl, hkeep _ hname, hnew hname,
        List.map_cons]

theorem ofRoutes_concat (routes : List (List String)) (route : List String) :
    ofRoutes (routes ++ [route]) = (ofRoutes routes).insert route := by
  rw [ofRoutes, List.foldl_concat, ← ofRoutes]

/-- A name of no directory has no paths below it. -/
theorem pathsBelow_eq_nil (h : name ∉ directoryNames routes) : pathsBelow name routes = [] :=
  List.eq_nil_iff_forall_not_mem.mpr fun route hroute => h (mem_directoryNames.mpr ⟨route, hroute⟩)

/-- The folder that paths make, by the names of its level and the folders that the paths below them
make. -/
def ofLevel (routes : List (List String)) : Folder :=
  let folders := (sortedNames (directoryNames routes)).map fun name =>
    (name, ofRoutes (pathsBelow name routes))
  mk folders (sortedNames (fileNames routes))

/-- One path more enters one name: that of a file, or that of the directory on its way. -/
theorem insert_ofLevel (routes : List (List String)) (route : List String) :
    (ofLevel routes).insert route = ofLevel (routes ++ [route]) := by
  have hdirectories :
      directoryNames (routes ++ [route]) = directoryNames routes ++ directoryNames [route] :=
    List.filterMap_append
  have hfiles : fileNames (routes ++ [route]) = fileNames routes ++ fileNames [route] :=
    List.filterMap_append
  have hbelow : ∀ name,
      pathsBelow name (routes ++ [route]) = pathsBelow name routes ++ pathsBelow name [route] :=
    fun _ => List.filterMap_append
  simp only [ofLevel, hdirectories, hfiles, hbelow]
  match route with
  | [] =>
    have hnone : ∀ name, pathsBelow name [[]] = [] := fun _ => rfl
    have hfile : fileNames [[]] = [] := rfl
    have hdirectory : directoryNames [[]] = [] := rfl
    simp only [hnone, hfile, hdirectory, List.append_nil, insert]
  | [name] =>
    have hnone : ∀ other, pathsBelow other [[name]] = [] := fun _ => rfl
    have hfile : fileNames [[name]] = [name] := rfl
    have hdirectory : directoryNames [[name]] = [] := rfl
    simp only [hnone, hfile, hdirectory, List.append_nil, insert, insertName_sortedNames]
  | name :: next :: rest =>
    have hfile : fileNames [name :: next :: rest] = [] := rfl
    have hdirectory : directoryNames [name :: next :: rest] = [name] := rfl
    have hsorted := pairwise_lt_sortedNames (directoryNames routes)
    have hnew : name ∉ sortedNames (directoryNames routes) →
        ofRoutes (pathsBelow name routes) = empty := by
      intro hname
      rw [pathsBelow_eq_nil (mt mem_sortedNames.mpr hname)]
      rfl
    simp only [hfile, hdirectory, List.append_nil, insert]
    rw [change_map _ (fun other => ofRoutes (pathsBelow other routes)) hsorted hnew,
      insertName_sortedNames]
    -- the path is one more below its own directory, and none below another
    refine congrArg (mk · _) (List.map_congr_left fun other _ => ?_)
    by_cases hother : other = name
    · subst hother
      have hone : pathsBelow other [other :: next :: rest] = [next :: rest] := by
        simp [pathsBelow]
      rw [if_pos rfl, hone, ofRoutes_concat]
    · have hnone : pathsBelow other [name :: next :: rest] = [] := by
        simp [pathsBelow, Ne.symm hother]
      rw [if_neg hother, hnone, List.append_nil]

/-- What the paths make is known on each level by the names there. -/
theorem ofRoutes_eq (routes : List (List String)) : ofRoutes routes = ofLevel routes := by
  induction routes using List.reverseRecOn with
  | nil =>
    have hfiles : fileNames [] = [] := rfl
    have hdirectories : directoryNames [] = [] := rfl
    rw [ofLevel, hfiles, hdirectories, sortedNames_nil]
    rfl
  | append_singleton routes route ih => rw [ofRoutes_concat, ih, insert_ofLevel]

/-! ## The tree -/

theorem nodes_map (parent : String) (g : String → Folder) (names : List String) :
    nodes parent (names.map fun name => (name, g name)) =
      names.map fun name =>
        .directory name (pathBelow parent name) ((g name).toTree (pathBelow parent name)) := by
  induction names with
  | nil => rw [List.map_nil, nodes, List.map_nil]
  | cons name rest ih => rw [List.map_cons, nodes, ih, List.map_cons]

/-- The nodes of what the paths make are those of their levels. -/
theorem toTree_ofRoutes {depth : Nat}
    (hdepth : ∀ route ∈ routes, route.length ≤ depth) (parent : String) :
    (ofRoutes routes).toTree parent = entriesBelow depth parent routes := by
  induction depth generalizing routes parent with
  | zero =>
    have hempty : ∀ route ∈ routes, route = [] := fun route hroute =>
      List.eq_nil_of_length_eq_zero (Nat.le_zero.mp (hdepth route hroute))
    have hfiles : fileNames routes = [] := List.eq_nil_iff_forall_not_mem.mpr fun name hname =>
      List.cons_ne_nil _ _ (hempty _ (mem_fileNames.mp hname))
    have hdirectories : directoryNames routes = [] := by
      refine List.eq_nil_iff_forall_not_mem.mpr fun name hname => ?_
      obtain ⟨route, hroute⟩ := mem_directoryNames.mp hname
      exact List.cons_ne_nil _ _ (hempty _ (mem_pathsBelow.mp hroute).2)
    rw [ofRoutes_eq, ofLevel, hfiles, hdirectories, sortedNames_nil, toTree, nodes_map,
      entriesBelow, List.map_nil, List.map_nil, List.append_nil]
  | succ depth ih =>
    rw [ofRoutes_eq, ofLevel, toTree, nodes_map, entriesBelow]
    refine congrArg (· ++ _) (List.map_congr_left fun name _ => ?_)
    have hbelow : ∀ route ∈ pathsBelow name routes, route.length ≤ depth := fun route hroute =>
      Nat.le_of_succ_le_succ (hdepth _ (mem_pathsBelow.mp hroute).2)
    rw [ih hbelow]

end Folder

/-- **The tree of a list of paths can be made path by path.** Empty segments of the paths are left
out. -/
theorem Tree.ofPaths_eq_toTree (paths : List String) :
    ofPaths paths = (Folder.ofRoutes (paths.map Path.namedSegments)).toTree "" := by
  refine (Folder.toTree_ofRoutes (fun route hroute => ?_) "").symm
  exact (foldl_max_le_iff.mp (Nat.le_refl _)).2 _ (List.mem_map_of_mem hroute)

end ImportChart
