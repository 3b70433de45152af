import ImportChart.Proofs.Analysis.Account
import ImportChart.Proofs.Graph.Agreement

/-!
# Where dependencies come from

A dependency of an analysis is known by the file it is found in: it is a reference of the text of
that file, its origin is that of its token in the language of the file's path, and what it leads to
is a file of the tree if it is internal and its token if it is not (`Dependency.ReadIn`). Listings
and summaries are made of the files read; the diagrams are drawn from the annotated tree or from the
table of these files (`Analysis.inputs`), and either way every source drawn is a file that was read,
with those of its dependencies that are shown (`Snapshot.exists_file_of_source`).

So whatever is to be said of the targets of an analysis is said of tokens and paths of files.
-/

namespace ImportChart

/-- What is known of a dependency of the file at a path of a snapshot. -/
structure Dependency.ReadIn (snapshot : Snapshot) (path : String)
    (dependency : Dependency) : Prop where
  reference_mem : dependency.toReference ∈ (Language.detect path).extract (snapshot.text path)
  origin_eq : dependency.origin = (Language.detect path).classify dependency.token
  target_mem : ∀ {target : String}, dependency.origin = .internal →
    dependency.targetPath = some target →
    target ∈ snapshot.tree.filePaths

namespace Dependency

variable {dependency : Dependency} {target : String}

theorem target?_of_ne_internal (h : dependency.origin ≠ .internal) :
    dependency.target? = some dependency.token :=
  if_neg h

/-- A dependency leads to its path if it is internal, and to its token if it is not. -/
theorem target?_eq_some_iff : dependency.target? = some target ↔
    (dependency.origin = .internal ∧ dependency.targetPath = some target) ∨
      (dependency.origin ≠ .internal ∧ dependency.token = target) := by
  rw [target?]
  by_cases horigin : dependency.origin = .internal
  · rw [if_pos horigin]
    exact ⟨fun h => .inl ⟨horigin, h⟩,
      fun h => h.elim And.right fun hother => absurd horigin hother.1⟩
  · rw [if_neg horigin, Option.some_inj]
    exact ⟨fun h => .inr ⟨horigin, h⟩,
      fun h => h.elim (fun hother => absurd hother.1 horigin) And.right⟩

end Dependency

/-! ## The files of an analysis -/

namespace Snapshot

variable {snapshot : Snapshot} {settings : AnalysisSettings} {file : ResolvedFile}

/-- A file is read in the language of its path. -/
theorem language_parseFile (snapshot : Snapshot) (path : String) :
    (snapshot.parseFile path).language = .detect (snapshot.parseFile path).path := rfl

/-- Each file that is read is resolved among all files of the tree. -/
theorem files_analyze (snapshot : Snapshot) (settings : AnalysisSettings) :
    (snapshot.analyze settings).files =
    (snapshot.analyzed settings).map fun path =>
      (snapshot.parseFile path).resolve snapshot.tree.filePaths :=
  List.map_map

/-- The diagnostics are the warnings about each file that is read. -/
theorem diagnostics_analyze (snapshot : Snapshot) (settings : AnalysisSettings) :
    (snapshot.analyze settings).diagnostics =
      (snapshot.analyzed settings).flatMap fun path =>
        (snapshot.parseFile path).warnings snapshot.tree.filePaths :=
  List.flatMap_map _ _ _

/-- A file of an analysis is made of the text at its path. -/
theorem eq_resolve_of_mem_files (h : file ∈ (snapshot.analyze settings).files) :
    file = (snapshot.parseFile file.path).resolve snapshot.tree.filePaths := by
  rw [files_analyze] at h
  obtain ⟨path, -, rfl⟩ := List.mem_map.mp h
  rfl

theorem path_mem_of_mem_files (h : file ∈ (snapshot.analyze settings).files) :
    file.path ∈ snapshot.tree.filePaths := by
  refine (analyzed_sublist snapshot settings).mem ?_
  rw [← map_path_files_analyze]
  exact List.mem_map_of_mem h

/-- A dependency of a file of an analysis is read in that file. -/
theorem readIn_of_mem_files (h : file ∈ (snapshot.analyze settings).files) {dependency : Dependency}
    (hmem : dependency ∈ file.dependencies) : dependency.ReadIn snapshot file.path := by
  have hlanguage := snapshot.language_parseFile file.path
  have hfile := eq_resolve_of_mem_files h
  rw [hfile] at hmem
  have hreference :
      dependency.toClassifiedReference ∈ (snapshot.parseFile file.path).references := by
    rw [← ParsedFile.toClassifiedReference_resolve hlanguage]
    exact List.mem_map_of_mem hmem
  obtain ⟨reference, hextract, hclassified⟩ := List.mem_map.mp hreference
  refine ⟨?_, ?_, fun _ htarget => ?_⟩
  · rw [← hclassified]
    exact hextract
  · rw [← hclassified]
    rfl
  · exact (ParsedFile.of_targetPath_eq_some hlanguage hmem htarget).2

end Snapshot

/-! ## The sources of its diagrams -/

/-- What the diagrams of an analysis are drawn from: its annotated tree, or the table of the files
it read. -/
def Analysis.inputs (analysis : Analysis) : List GraphInput :=
  [.tree analysis.tree, .files analysis.dependencyTable]

/-- An annotated file that an input draws as a source. -/
theorem GraphInput.exists_placedFile_of_source {input : GraphInput} {options : RenderOptions}
    {source : String × List Dependency} (h : source ∈ input.sources options) :
    ∃ dependencies, (∃ depth, ⟨depth, source.1, some dependencies⟩ ∈ input.placedFiles) ∧
    dependencies ≠ [] ∧
      source.2 = options.shown dependencies := by
  obtain ⟨annotated, hannotated, rfl⟩ := List.mem_map.mp h
  obtain ⟨hadmitted, hnonempty⟩ := List.mem_filter.mp hannotated
  obtain ⟨placed, hplaced, hsome⟩ := List.mem_filterMap.mp hadmitted
  obtain ⟨dependencies, hdependencies, rfl⟩ := Option.map_eq_some_iff.mp hsome
  refine ⟨dependencies, ⟨placed.depth, ?_⟩, ?_, rfl⟩
  · rw [← hdependencies]
    exact (List.mem_filter.mp hplaced).1
  · rintro rfl
    exact Bool.false_ne_true hnonempty

/-- Dependencies listed for a path are those of a file that is listed under it. -/
theorem exists_file_of_dependenciesAt_ne_nil {files : List ResolvedFile} {path : String}
    (h : dependenciesAt files path ≠ []) :
    ∃ file ∈ files, file.path = path ∧ file.dependencies = dependenciesAt files path := by
  rw [dependenciesAt] at h ⊢
  cases hfound : files.reverse.find? fun file => decide (file.path = path) with
  | none =>
    rw [hfound] at h
    exact absurd rfl h
  | some file =>
    have htrue := List.find?_some hfound
    exact ⟨file, List.mem_reverse.mp (List.mem_of_find?_eq_some hfound),
      of_decide_eq_true htrue, rfl⟩

namespace Snapshot

variable {snapshot : Snapshot} {settings : AnalysisSettings} {input : GraphInput}
  {options : RenderOptions} {source : String × List Dependency}

/-- A source of a diagram is a file that was read, with its dependencies that are shown. -/
theorem exists_file_of_source (hinput : input ∈ (snapshot.analyze settings).inputs)
    (h : source ∈ input.sources options) :
    ∃ file ∈ (snapshot.analyze settings).files, file.path = source.1 ∧
      source.2 = options.shown file.dependencies := by
  obtain ⟨dependencies, ⟨depth, hplaced⟩, hne, hshown⟩ := GraphInput.exists_placedFile_of_source h
  rcases List.mem_cons.mp hinput with rfl | hinput
  · -- in the tree, a path has the dependencies listed for it
    rw [GraphInput.placedFiles, analyze, Tree.annotate, Tree.placedFiles_annotateWith] at hplaced
    obtain ⟨placed, -, heq⟩ := List.mem_map.mp hplaced
    injection heq with _ hpath hdependencies
    obtain rfl := Option.some.inj hdependencies
    obtain ⟨file, hfile, hown, hlisted⟩ := exists_file_of_dependenciesAt_ne_nil hne
    exact ⟨file, hfile, hown.trans hpath, by rw [hshown, ← hlisted]⟩
  · -- in the table, each entry is that of a file
    obtain rfl := List.mem_singleton.mp hinput
    obtain ⟨entry, hentry, heq⟩ := List.mem_map.mp hplaced
    obtain ⟨file, hfile, rfl⟩ := List.mem_map.mp (Table.mem_of_mem_ofPairs hentry)
    injection heq with hdepth hpath hdependencies
    exact ⟨file, hfile, hpath, by rw [hshown, ← Option.some.inj hdependencies]⟩

theorem path_mem_of_source (hinput : input ∈ (snapshot.analyze settings).inputs)
    (h : source ∈ input.sources options) : source.1 ∈ snapshot.tree.filePaths := by
  obtain ⟨file, hfile, hpath, -⟩ := exists_file_of_source hinput h
  exact hpath ▸ path_mem_of_mem_files hfile

/-- A dependency drawn is read in the file that is its source. -/
theorem readIn_of_source (hinput : input ∈ (snapshot.analyze settings).inputs)
    (h : source ∈ input.sources options) {dependency : Dependency} (hmem : dependency ∈ source.2) :
    dependency.ReadIn snapshot source.1 := by
  obtain ⟨file, hfile, hpath, hshown⟩ := exists_file_of_source hinput h
  rw [hshown] at hmem
  exact hpath ▸ readIn_of_mem_files hfile (List.mem_filter.mp hmem).1

end Snapshot

end ImportChart
