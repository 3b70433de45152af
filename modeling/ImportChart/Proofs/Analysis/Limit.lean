import ImportChart.Proofs.Analysis.Provenance

/-!
# The limit on the files read

The limit on the number of files cuts what is read and nothing else. Each file is read by itself,
and its references are looked up among all files of the tree, those beyond the limit included. So an
analysis with a smaller limit is the beginning of one with a larger limit
(`Snapshot.analyze_of_le`): its files are the first of the other's files, each with the same
dependencies, and its diagnostics stand at the beginning of the other's.
-/

namespace ImportChart

/-- A dependency of a resolved file that is internal leads where its token is resolved to. -/
theorem ParsedFile.targetPath_eq_of_mem_resolve {file : ParsedFile}
    (hlanguage : file.language = .detect file.path) {known : List String} {dependency : Dependency}
    (hmem : dependency ∈ (file.resolve known).dependencies)
    (horigin : dependency.origin = .internal) :
    dependency.targetPath = (ImportChart.resolve file.path dependency.token known).path? := by
  obtain ⟨reference, -, rfl⟩ := List.mem_map.mp hmem
  have hreference := (resolveReference_accounted hlanguage known reference).1
  have hinternal : reference.origin = .internal := by
    rw [← hreference]
    exact horigin
  have htoken : (file.resolveReference known reference).1.token = reference.token :=
    congrArg (fun kept : ClassifiedReference => kept.token) hreference
  rw [htoken, ImportChart.resolve, ← hlanguage, resolveReference, if_pos hinternal]
  cases file.language.resolve file.path reference.token known with
  | resolved path => exact if_pos hinternal
  | unresolved cause => exact if_pos hinternal

namespace Snapshot

/-- Which files are selected does not depend on the limit. -/
theorem analyzed_maxFiles (snapshot : Snapshot) (settings : AnalysisSettings) (limit : Nat) :
    snapshot.analyzed { settings with maxFiles := limit } =
      (snapshot.selected settings).take limit := rfl

/-- There are as many selected paths as selected files of the tree. -/
theorem length_selected (snapshot : Snapshot) (settings : AnalysisSettings) :
    (snapshot.selected settings).length = (snapshot.tree.files.filter fun file =>
      settings.includeUnrecognized || (Language.recognize file.path).isSome).length := by
  rw [selected, Tree.filePaths, List.filter_map, List.length_map]
  rfl

/-- **A larger limit only appends.** With all other settings equal, the files read within a smaller
limit are the first of those read within a larger one, as many as the limit allows and the settings
select, and the diagnostics about them are the beginning of the diagnostics. A file that is read
within the smaller limit has the same dependencies within the larger one, and its internal
dependencies are resolved among all files of the tree. -/
theorem analyze_of_le (snapshot : Snapshot) (settings : AnalysisSettings) {limit larger : Nat}
    (h : limit ≤ larger) :
    let known := snapshot.tree.files.map Node.path
    let small := snapshot.analyze { settings with maxFiles := limit }
    let large := snapshot.analyze { settings with maxFiles := larger }
    small.files = large.files.take limit ∧
      small.diagnostics <+: large.diagnostics ∧
      small.files.length = min limit (snapshot.tree.files.filter fun file =>
        settings.includeUnrecognized || (Language.recognize file.path).isSome).length ∧
      ∀ file ∈ small.files, file ∈ large.files ∧ ∀ dependency ∈ file.dependencies,
      dependency.origin = .internal →
        dependency.targetPath = (resolve file.path dependency.token known).path? := by
  intro known small large
  have hfiles : small.files = large.files.take limit := by
    rw [files_analyze, files_analyze, analyzed_maxFiles, analyzed_maxFiles, ← List.map_take,
      List.take_take, Nat.min_eq_left h]
  refine ⟨hfiles, ?_, ?_, fun file hfile => ⟨?_, fun dependency hmem horigin => ?_⟩⟩
  · obtain ⟨beyond, hbeyond⟩ :
        (snapshot.selected settings).take limit <+: (snapshot.selected settings).take larger :=
      List.take_prefix_take_left h
    rw [diagnostics_analyze, diagnostics_analyze, analyzed_maxFiles, analyzed_maxFiles, ← hbeyond,
      List.flatMap_append]
    exact List.prefix_append _ _
  · rw [files_analyze, analyzed_maxFiles, List.length_map, List.length_take, length_selected]
  · rw [hfiles] at hfile
    exact List.mem_of_mem_take hfile
  · have hlanguage := snapshot.language_parseFile file.path
    rw [eq_resolve_of_mem_files hfile] at hmem
    exact ParsedFile.targetPath_eq_of_mem_resolve hlanguage hmem horigin

/-- Three files, the first of which names the last and a file that is not there. -/
def chainedFiles : Snapshot where
  tree := [.file "a.js" "a.js" none, .file "b.js" "b.js" none, .file "c.js" "c.js" none]
  contents :=
    [("a.js", "import './c';\nimport './none';\n"), ("b.js", "import './none';"),
      ("c.js", "import './a';")]

/-- Within a limit of one, the file beyond the limit is still the target of the file that is
read. -/
theorem analyze_of_le_chainedFiles :
    let small := chainedFiles.analyze { maxFiles := 1 }
    let large := chainedFiles.analyze { maxFiles := 2 }
    1 ≤ 2 ∧ small.files = large.files.take 1 ∧ small.diagnostics <+: large.diagnostics ∧
      small.files.map (fun file => (file.path, file.dependencies.map Dependency.target?)) =
        [("a.js", [some "c.js", none])] ∧
      small.diagnostics.length = 1 ∧ large.diagnostics.length = 2 := by
  intro small large
  obtain ⟨hfiles, hdiagnostics, -⟩ := analyze_of_le chainedFiles {} (by decide : 1 ≤ 2)
  exact ⟨by decide, hfiles, hdiagnostics, by decide +kernel, by decide +kernel, by decide +kernel⟩

end Snapshot

end ImportChart
