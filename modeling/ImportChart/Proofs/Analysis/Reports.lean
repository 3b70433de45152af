import ImportChart.Proofs.Analysis.Provenance
import ImportChart.Proofs.Reference.Placement
import ImportChart.Report

/-!
# Reports point at what they are about

The report of a diagnostic is made of two parts that come by different ways. Its labels are places
in the text that was scanned; its source is the content that is looked up again by the path the
diagnostic names, and a label that ends behind that content is left out. For the diagnostics of an
analysis the two fit (`Snapshot.reports_analyze`): the source is the text that was scanned, no label
is left out, and the bytes that the label of a report covers are the token of an internal dependency
that leads nowhere.

A file without content has an empty text, in which nothing is found; so every diagnostic is about a
file that has one.
-/

namespace ImportChart

/-- A label marks a token in a text: it does not end before it starts, it ends within the text, and
the bytes from its start on, as many as its size, are those of the token. -/
structure Label.Marks (label : Label) (text token : String) : Prop where
  start_le_stop : label.span.start ≤ label.span.stop
  end_le : label.span.start + label.span.size ≤ text.utf8ByteSize
  bytes_eq : text.toByteArray.extract label.span.start (label.span.start + label.span.size) =
    token.toByteArray

/-- The bytes of the middle one of three texts. -/
theorem extract_toByteArray_append (before token after : String) :
    (before ++ token ++ after).toByteArray.extract before.utf8ByteSize
      (before.utf8ByteSize + token.utf8ByteSize) = token.toByteArray := by
  have hmiddle : (token ++ after).toByteArray.extract 0 token.utf8ByteSize = token.toByteArray := by
    rw [String.toByteArray_append]
    exact ByteArray.extract_append_eq_left String.size_toByteArray.symm
  rw [String.append_assoc, String.toByteArray_append, ← hmiddle]
  exact ByteArray.extract_append_size_add' (i := 0) String.size_toByteArray.symm

/-- A label at the place of a reference that stands in a text marks its token. -/
theorem Reference.StandsIn.marks {reference : Reference} {text : String}
    (h : reference.StandsIn text) {label : Label} (hspan : label.span = reference.span) :
    label.Marks text reference.token := by
  obtain ⟨before, after, rfl, hstart, hstop, -⟩ := h
  have hbytes := String.utf8ByteSize_append (s := before) (t := reference.token)
  have htext := String.utf8ByteSize_append (s := before ++ reference.token) (t := after)
  have hsize : label.span.size = reference.token.utf8ByteSize := by
    rw [Span.size, hspan]
    omega
  refine ⟨?_, ?_, ?_⟩
  · rw [hspan]
    omega
  · rw [hsize, hspan]
    omega
  · rw [hsize, hspan, hstart]
    exact extract_toByteArray_append before reference.token after

/-- The label of a token in a text is shown with it. -/
theorem Label.Marks.labelsWithin_eq {label : Label} {text token : String}
    (h : label.Marks text token) :
    labelsWithin text [label] = [label] := by
  have hstop : label.span.stop ≤ byteSize text.toList := by
    rw [byteSize_toList]
    calc label.span.stop
        = label.span.start + label.span.size := (Nat.add_sub_cancel' h.start_le_stop).symm
      _ ≤ text.utf8ByteSize := h.end_le
  exact List.filter_cons_of_pos (decide_eq_true hstop)

/-- A reference found in a text stands in it, and its token is not empty. -/
theorem Language.standsIn_of_mem_extract {language : Language} {text : String}
    {reference : Reference} (h : reference ∈ language.extract text) :
    reference.StandsIn text ∧ reference.token ≠ "" := by
  obtain ⟨lexemes, htext, hfilled, hmentions⟩ := language.mentions_eq_locate text
  have hmention : reference ∈ language.mentions text := (firstsBy_sublist _).mem h
  rw [hmentions] at hmention
  exact ⟨Reference.standsIn_of_mem_locate htext hmention,
    Reference.token_ne_empty_of_mem_locate hfilled hmention⟩

/-! ## What diagnostics tell of -/

/-- A warning about a file tells of an internal dependency of it that leads nowhere. -/
theorem ParsedFile.exists_dependency_of_mem_warnings {file : ParsedFile}
    (hlanguage : file.language = .detect file.path) {known : List String} {diagnostic : Diagnostic}
    (h : diagnostic ∈ file.warnings known) :
    ∃ dependency ∈ (file.resolve known).dependencies, dependency.origin = .internal ∧
      dependency.targetPath = none ∧ diagnostic.TellsOf known file.path dependency := by
  obtain ⟨reference, hmem, hmade⟩ := List.mem_filterMap.mp h
  obtain ⟨-, haccounted⟩ := resolveReference_accounted hlanguage known reference
  rw [hmade] at haccounted
  refine ⟨_, List.mem_map_of_mem hmem, ?_⟩
  cases haccounted with
  | reported horigin hnone htells => exact ⟨horigin, hnone, htells⟩

namespace Snapshot

variable {snapshot : Snapshot} {settings : AnalysisSettings}

/-- A diagnostic of an analysis tells of an internal dependency of one of its files that leads
nowhere. -/
theorem exists_dependency_of_mem_diagnostics {diagnostic : Diagnostic}
    (h : diagnostic ∈ (snapshot.analyze settings).diagnostics) :
    ∃ file ∈ (snapshot.analyze settings).files, ∃ dependency ∈ file.dependencies,
    dependency.origin = .internal ∧
      dependency.targetPath = none ∧
      diagnostic.TellsOf snapshot.tree.filePaths file.path dependency := by
  rw [diagnostics_analyze] at h
  obtain ⟨path, hpath, hwarning⟩ := List.mem_flatMap.mp h
  obtain ⟨dependency, hmem, htold⟩ :=
    ParsedFile.exists_dependency_of_mem_warnings (snapshot.language_parseFile path) hwarning
  have hfile : (snapshot.parseFile path).resolve snapshot.tree.filePaths ∈
      (snapshot.analyze settings).files := by
    rw [files_analyze]
    exact List.mem_map_of_mem hpath
  exact ⟨_, hfile, dependency, hmem, htold⟩

/-- A file in whose text a reference is found has a content, and it is that text. -/
theorem content?_eq_some_text {language : Language} {path : String} {reference : Reference}
    (h : reference ∈ language.extract (snapshot.text path)) :
    snapshot.content? path = some (snapshot.text path) := by
  rw [text]
  cases hcontent : snapshot.content? path with
  | some content => rfl
  | none =>
    rw [text, hcontent] at h
    obtain ⟨hstands, htoken⟩ := Language.standsIn_of_mem_extract h
    have hlt := hstands.start_lt_stop htoken
    have hle : reference.span.stop ≤ 0 := hstands.stop_le
    exact absurd (Nat.lt_of_lt_of_le hlt hle) (Nat.not_lt_zero _)

/-- **Every report of an analysis points at a token.** The reports are those of the diagnostics, one
for one. Each tells of an internal dependency of a file that leads nowhere, and offers the content
of the file that the diagnostic names. It has one label, that of the diagnostic, and the bytes of
the content that the label covers are the token of the dependency. -/
theorem reports_analyze (snapshot : Snapshot) (settings : AnalysisSettings) :
    let analysis := snapshot.analyze settings
    List.Forall₂ (fun diagnostic report => ∃ file ∈ analysis.files,
      ∃ dependency ∈ file.dependencies,
        dependency.origin = .internal ∧ dependency.targetPath = none ∧
        diagnostic.file = some file.path ∧
        ∃ content label, snapshot.content? file.path = some content ∧ report.source = some content ∧
          diagnostic.labels = [label] ∧ report.labels = [label] ∧
          label.Marks content dependency.token)
      analysis.diagnostics (snapshot.reports analysis.diagnostics) := by
  intro analysis
  rw [reports, List.forall₂_map_right_iff, List.forall₂_same]
  intro diagnostic hdiagnostic
  obtain ⟨file, hfile, dependency, hdependency, horigin, hnone, htells⟩ :=
    exists_dependency_of_mem_diagnostics hdiagnostic
  have hextract := (readIn_of_mem_files hfile hdependency).reference_mem
  have hcontent := content?_eq_some_text hextract
  obtain ⟨label, hlabels, hspan⟩ := List.map_eq_singleton_iff.mp htells.span
  have hmarks : label.Marks (snapshot.text file.path) dependency.token :=
    (Language.standsIn_of_mem_extract hextract).1.marks hspan
  have hsource : snapshot.sourceOf diagnostic = snapshot.text file.path := by
    rw [sourceOf, htells.file]
    rfl
  refine ⟨file, hfile, dependency, hdependency, horigin, hnone, htells.file,
    snapshot.text file.path, label, hcontent, ?_, hlabels, ?_, hmarks⟩
  · rw [Diagnostic.report, hsource]
  · rw [Diagnostic.report, hsource, hlabels]
    exact hmarks.labelsWithin_eq

end Snapshot

end ImportChart
