import ImportChart.Analysis
import ImportChart.Graph.Diagram
import ImportChart.Proofs.Graph.Construction
import ImportChart.Proofs.Tree.Routes

/-!
# Two inputs for one diagram

An analysis can be drawn from its annotated tree or from the table of the files it read. The tree
holds every file, also those that were not read, at the depth at which they stand; the table holds
the files read, as deep as their paths have slashes. For a snapshot made of a list of files the two
are drawn alike (`Diagram.render_tree_eq_render_files`): the files that were not read have no
dependencies in the tree, and what is left of it stands in the order of the table, at the same
depths.

A snapshot with a tree of its own may hold a path twice, or a file at a depth that its path does not
have; nothing is said of it here.
-/

namespace ImportChart

/-- A list without repetitions and its part, filtered by what holds in that part only. -/
theorem filter_eq_of_sublist {part whole : List α} {p : α → Bool} (hsub : part.Sublist whole)
    (hnodup : whole.Nodup) (h : ∀ a ∈ whole, p a = true → a ∈ part) :
    whole.filter p = part.filter p := by
  have hperm : (part.filter p).Perm (whole.filter p) := by
    refine (List.perm_ext_iff_of_nodup ((hsub.nodup hnodup).filter p) (hnodup.filter p)).mpr
      fun a => ?_
    rw [List.mem_filter, List.mem_filter]
    exact ⟨fun ⟨hmem, hp⟩ => ⟨hsub.mem hmem, hp⟩, fun ⟨hmem, hp⟩ => ⟨h a hmem hp, hp⟩⟩
  exact ((hsub.filter p).eq_of_length hperm.length_eq).symm

/-- A file as deep as its path has slashes. -/
def PlacedFile.ofPath (dependenciesOf : String → List Dependency) (path : String) : PlacedFile :=
  ⟨Path.depth path, path, some (dependenciesOf path)⟩

/-- The sources among files that are as deep as their paths have slashes. -/
theorem GraphInput.sources_of_placedFiles {input : GraphInput}
    {dependenciesOf : String → List Dependency} {paths : List String}
    (h : input.placedFiles = paths.map (PlacedFile.ofPath dependenciesOf))
    (options : RenderOptions) :
    input.sources options =
      (paths.filter fun path => options.admitsDepth (Path.depth path) &&
        !(dependenciesOf path).isEmpty).map
        fun path => (path, options.shown (dependenciesOf path)) := by
  have hadmitted : options.admitted input.placedFiles =
      (paths.filter fun path => options.admitsDepth (Path.depth path)).map fun path =>
        (path, dependenciesOf path) := by
    rw [RenderOptions.admitted, h, List.filter_map, List.filterMap_map, ← List.filterMap_eq_map]
    rfl
  rw [GraphInput.sources, hadmitted, List.filter_map, List.map_map, List.filter_filter]
  refine congrArg _ (List.filter_congr fun path _ => ?_)
  exact Bool.and_comm _ _

/-! ## The two inputs of an analysis -/

namespace Snapshot

variable (snapshot : Snapshot) (settings : AnalysisSettings)

theorem map_path_files_analyze :
    (snapshot.analyze settings).files.map ResolvedFile.path = snapshot.analyzed settings := by
  rw [analyze, List.map_map, List.map_map]
  exact List.map_id _

theorem analyzed_sublist : (snapshot.analyzed settings).Sublist snapshot.tree.filePaths :=
  (List.take_sublist _ _).trans List.filter_sublist

variable {snapshot} {settings}

/-- The files of the annotated tree, if its files are as deep as their paths have slashes. -/
theorem placedFiles_tree
    (hdepth : ∀ file ∈ Tree.placedFiles 0 snapshot.tree, file.depth = Path.depth file.path) :
    (GraphInput.tree (snapshot.analyze settings).tree).placedFiles =
      snapshot.tree.filePaths.map (.ofPath (dependenciesAt (snapshot.analyze settings).files)) := by
  rw [GraphInput.placedFiles, ← Tree.map_path_placedFiles 0, List.map_map]
  refine (Tree.placedFiles_annotateWith _ _ _).trans (List.map_congr_left fun file hfile => ?_)
  rw [PlacedFile.annotate, hdepth file hfile]
  rfl

/-- The files of the table, if no two files of the tree share a path. -/
theorem placedFiles_dependencyTable (hnodup : snapshot.tree.filePaths.Nodup) :
    (GraphInput.files (snapshot.analyze settings).dependencyTable).placedFiles =
      (snapshot.analyzed settings).map
        (.ofPath (dependenciesAt (snapshot.analyze settings).files)) := by
  have hpaths : ((snapshot.analyze settings).files.map ResolvedFile.path).Nodup := by
    rw [map_path_files_analyze]
    exact (snapshot.analyzed_sublist settings).nodup hnodup
  have htable : (snapshot.analyze settings).dependencyTable =
      (snapshot.analyze settings).files.map fun file => (file.path, file.dependencies) := by
    refine Table.ofPairs_of_nodup ?_
    rw [List.map_map]
    exact hpaths
  rw [GraphInput.placedFiles, htable, ← map_path_files_analyze, List.map_map, List.map_map]
  refine List.map_congr_left fun file hfile => ?_
  rw [Function.comp_apply, Function.comp_apply, PlacedFile.ofPath,
    dependenciesAt_of_mem hpaths hfile]

/-- The two inputs of an analysis have the same sources. -/
theorem sources_tree_eq_sources_files
    (hdepth : ∀ file ∈ Tree.placedFiles 0 snapshot.tree, file.depth = Path.depth file.path)
    (hnodup : snapshot.tree.filePaths.Nodup) (options : RenderOptions) :
    (GraphInput.tree (snapshot.analyze settings).tree).sources options =
      (GraphInput.files (snapshot.analyze settings).dependencyTable).sources options := by
  rw [GraphInput.sources_of_placedFiles (placedFiles_tree hdepth),
    GraphInput.sources_of_placedFiles (placedFiles_dependencyTable hnodup)]
  refine congrArg _ (filter_eq_of_sublist (snapshot.analyzed_sublist settings) hnodup
    fun path _ hdrawn => ?_)
  -- a file that was not read has no dependencies in the tree, and is not drawn
  by_contra hread
  rw [← map_path_files_analyze] at hread
  rw [dependenciesAt_of_not_mem hread, List.isEmpty_nil, Bool.not_true, Bool.and_false] at hdrawn
  exact Bool.false_ne_true hdrawn

end Snapshot

/-- **The annotated tree and the table of an analysis give the same diagram**, for every list of
files. -/
theorem Diagram.render_tree_eq_render_files (files : List (String × String))
    (settings : AnalysisSettings) (options : RenderOptions) :
    render (.tree ((Snapshot.ofFiles files).analyze settings).tree) options =
      render (.files ((Snapshot.ofFiles files).analyze settings).dependencyTable) options := by
  have hdepth : ∀ file ∈ Tree.placedFiles 0 (Snapshot.ofFiles files).tree,
      file.depth = Path.depth file.path :=
    fun _ hfile => Tree.depth_of_mem_placedFiles_ofPaths hfile
  have hnodup : (Snapshot.ofFiles files).tree.filePaths.Nodup := Tree.nodup_filePaths_ofPaths _
  rw [render, render, Graph.ofInput_eq_foldl, Graph.ofInput_eq_foldl,
    Snapshot.sources_tree_eq_sources_files hdepth hnodup]

end ImportChart
