import ImportChart.Configuration
import ImportChart.Graph.Statistics
import ImportChart.Report

/-!
# Notices

What a run tells while it works. A notice says what happened; `Notice.line` is how it is logged, a
sentence with the values that belong to it.
-/

namespace ImportChart

/-- How important a notice is. -/
inductive NoticeLevel where
  | information
  | warning
  deriving DecidableEq, Repr

/-- The word that stands before a notice. -/
def NoticeLevel.word : NoticeLevel → String
  | information => "INFO"
  | warning => "WARN"

/-- Something that happened in a run. -/
inductive Notice where
  | started (input output : String)
  | readsConfiguration (source : ConfigurationSource)
  | loaded (root : String) (files : Nat)
  /-- More files are selected than are read. -/
  | limited (selected maxFiles : Nat)
  | analyzes (files : Nat)
  /-- References that lead nowhere, counted. -/
  | unresolved (count : Nat)
  /-- A reference that leads nowhere, shown. -/
  | report (report : Report)
  /-- The one file to be drawn has not been read. -/
  | focusNotAnalyzed (path : String)
  | draws (direction : Direction) (styled : Bool)
  | drawn (statistics : Statistics)
  | finished (output : String)
  deriving Repr

namespace Notice

/-- How important a notice is. -/
def level : Notice → NoticeLevel
  | limited .. | unresolved _ | report _ | focusNotAnalyzed _ => .warning
  | _ => .information

/-- The sentence of a notice. -/
def sentence : Notice → String
  | started .. => "Processing directory"
  | readsConfiguration _ => "Loading configuration"
  | loaded .. => "Snapshot loaded"
  | limited .. => "File limit reached, skipping remaining files"
  | analyzes _ => "Analyzing snapshot"
  | unresolved _ =>
    "Unresolved internal references were left out of the graph, use --show-warnings to list them"
  | report shown => shown.text
  | focusNotAnalyzed _ => "Focused file was not analyzed"
  | draws .. => "Rendering diagram"
  | drawn _ => "Diagram rendered"
  | finished _ => "Graph exported successfully"

/-- The values of a notice with their names. -/
def values : Notice → List (String × String)
  | started input output => [("input_path", input), ("output_path", output)]
  | readsConfiguration source => [("source", source.origin.name ++ " " ++ source.path)]
  | loaded root files => [("root", root), ("files", toString files)]
  | limited selected maxFiles => [("selected", toString selected), ("max_files", toString maxFiles)]
  | analyzes files => [("files", toString files)]
  | unresolved count => [("count", toString count)]
  | report _ => []
  | focusNotAnalyzed path => [("path", path)]
  | draws direction styled => [("direction", direction.letters), ("styled", toString styled)]
  | drawn statistics => [("stats", statistics.display)]
  | finished output => [("output_file", output)]

/-- A notice as it is logged. -/
def line (notice : Notice) : String :=
  " ".intercalate (notice.level.word :: notice.sentence ::
    notice.values.map fun (name, value) => name ++ "=" ++ value)

end Notice

end ImportChart
