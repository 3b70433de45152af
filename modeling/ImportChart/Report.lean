import ImportChart.Analysis
import ImportChart.Failure

/-!
# Reports

A report is a finding or a failure prepared for display beside the text it is about. The report of a
diagnostic offers the text of its file and the labels that lie within that text; other reports offer
no text.
-/

namespace ImportChart

/-- What is displayed. -/
structure Report where
  text : String
  code : Option String
  severity : Severity
  help : Option String
  /-- The text that the labels are places of. -/
  source : Option String
  labels : List Label
  deriving DecidableEq, Repr

/-- The labels that lie within a text. A place past its end cannot be shown. -/
def labelsWithin (source : String) (labels : List Label) : List Label :=
  labels.filter fun label => decide (label.span.stop ≤ byteSize source.toList)

/-- The report of a diagnostic about a text. -/
def Diagnostic.report (diagnostic : Diagnostic) (source : String) : Report :=
  { text :=
      match diagnostic.file with
      | some file => file ++ ": " ++ diagnostic.message
      | none => diagnostic.message
    code := diagnostic.code.map DiagnosticCode.text
    severity := diagnostic.severity
    help := diagnostic.help
    source := some source
    labels := labelsWithin source diagnostic.labels }

/-- The report of a failure. Wrong settings are about no text. -/
def Failure.report (failure : Failure) : Report :=
  let plain (code : String) : Report :=
    { text := failure.message, code := some code, severity := .error, help := none, source := none
      labels := [] }
  match failure with
  | .io _ => plain "depscope::io"
  | .configuration _ => plain "depscope::config"
  | .exporting _ => plain "depscope::export"
  | .settings diagnostic => diagnostic.report ""

/-- The text of the file that a diagnostic is about. -/
def Snapshot.sourceOf (snapshot : Snapshot) (diagnostic : Diagnostic) : String :=
  (diagnostic.file.map snapshot.text).getD ""

/-- The reports of diagnostics about the files of a snapshot. -/
def Snapshot.reports (snapshot : Snapshot) (diagnostics : List Diagnostic) : List Report :=
  diagnostics.map fun diagnostic => diagnostic.report (snapshot.sourceOf diagnostic)

end ImportChart
