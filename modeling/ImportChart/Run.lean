import ImportChart.CommandLine
import ImportChart.Graph.Diagram
import ImportChart.Graph.Listing
import ImportChart.Loading
import ImportChart.Notice
import ImportChart.Summary
import ImportChart.Tree.Record

/-!
# Runs

A run takes its settings from a configuration file and the command line, loads the directory it is
to chart, analyzes it, and writes a diagram, or the tree, the graph and the summary as JSON, to its
output file.

A run acts on a `World`: the files, and the notices it has told. A `Stage` is a part of it; what it
has done before it fails is not undone. `Run.document` makes the text to be written, and only then
does `Run.whole` write it. `Services` are what a run has others do for it, and they may fail.
-/

namespace ImportChart

/-- What a run has others do for it. -/
structure Services where
  /-- Walks through the directory that is to be charted. -/
  walk : Walk
  /-- Writes a record as text, or says why it cannot. -/
  serialize : Document → Except String String

/-- Walks through directories without ignore files, and writes any record as JSON. -/
def Services.plain : Services where
  walk := .plain
  serialize document := .ok document.toJson

/-- What a run acts on. -/
structure World where
  /-- The files as they are. -/
  system : FileSystem
  /-- What has been told, in order. -/
  log : List Notice := []

/-- A computation that reads and writes files, tells what it does, and may fail. -/
abbrev Stage := ExceptT Failure (StateM World)

namespace Stage

/-- Tells something. -/
def note (notice : Notice) : Stage Unit :=
  modify fun world => { world with log := world.log ++ [notice] }

/-- Looks at the files. -/
def files : Stage FileSystem := do
  return (← get).system

/-- Writes a file. -/
def writeFile (path : String) (content : List UInt8) : Stage Unit := do
  match (← files).write path content with
  | .error cause => throw (.io cause.message)
  | .ok after => modify fun world => { world with system := after }

end Stage

namespace Run

open Stage

/-- The settings of a run: those of its configuration file with the options put over them. -/
def settings (options : RunOptions) (userDirectory : Option String) : Stage Settings := do
  match ConfigurationSource.find? (← files) options.configuration userDirectory with
  | none => pure (options.applyTo {})
  | some source =>
    note (.readsConfiguration source)
    let settings ← ofExcept ((source.read (← files)).mapError Failure.configuration)
    pure (options.applyTo settings)

/-- Loads the directory of a run. -/
def snapshot (walk : Walk) (root : String) (settings : AnalysisSettings) : Stage Snapshot := do
  let loaded ← ofExcept ((← files).loadFiles walk root settings.includeUnrecognized)
  note (.loaded root loaded.length)
  pure (.ofLoaded loaded)

/-- Analyzes a snapshot. -/
def analysis (snapshot : Snapshot) (settings : AnalysisSettings) : Stage Analysis := do
  let selected := (snapshot.selected settings).length
  if settings.maxFiles < selected then note (.limited selected settings.maxFiles)
  note (.analyzes (min selected settings.maxFiles))
  pure (snapshot.analyze settings)

/-- Tells of the references that lead nowhere: how many there are, or each of them. -/
def warnings (snapshot : Snapshot) (diagnostics : List Diagnostic) (detailed : Bool) : Stage Unit :=
  if detailed then (snapshot.reports diagnostics).forM fun report => note (.report report)
  else if diagnostics.isEmpty then pure ()
  else note (.unresolved diagnostics.length)

/-- The options of render settings. -/
def renderOptions (settings : RenderSettings) : Stage RenderOptions :=
  ofExcept (settings.validate.mapError SettingsError.failure)

/-- The diagram of an analysis, or of one of its files. -/
def diagram (analysis : Analysis) (settings : RenderSettings)
    (focus : Option String) : Stage String := do
  let diagram ←
    match focus with
    | some path => do
      if path ∉ analysis.files.map ResolvedFile.path then note (.focusNotAnalyzed path)
      let options ← renderOptions settings
      pure (Diagram.renderFile (.tree analysis.tree) path options.direction)
    | none => do
      let options ← renderOptions settings
      note (.draws options.direction options.styled)
      pure (Diagram.render (.tree analysis.tree) options)
  note (.drawn (.ofDiagram diagram))
  pure diagram

/-- All that is known of an analysis, as a document. -/
def record (analysis : Analysis) : Document :=
  .table
    [("tree", analysis.tree.toDocument), ("graph", (Listing.ofFiles analysis.files).toDocument),
     ("summary", (Summary.ofFiles analysis.files).toDocument)]

/-- The text that a run writes to its output file. -/
def document (services : Services) (arguments : Arguments) (userDirectory : Option String) :
    Stage String := do
  let options := arguments.options
  note (.started arguments.input options.output)
  let settings ← settings options userDirectory
  let snapshot ← snapshot services.walk arguments.input settings.analysis
  let analysis ← analysis snapshot settings.analysis
  warnings snapshot analysis.diagnostics options.showWarnings
  match options.format with
  | .mermaid => diagram analysis settings.render options.focus
  | .json => ofExcept ((services.serialize (record analysis)).mapError Failure.exporting)

/-- The whole of a run. -/
def whole (services : Services) (arguments : Arguments) (userDirectory : Option String) :
    Stage Unit := do
  let text ← document services arguments userDirectory
  writeFile arguments.options.output (Utf8.encode text)
  note (.finished arguments.options.output)

end Run

/-- How a run ends. -/
structure Run where
  result : Except Failure Unit
  /-- What it told, in order. -/
  log : List Notice
  /-- The files after it. -/
  system : FileSystem

/-- Runs a command line. -/
def run (services : Services) (arguments : Arguments) (userDirectory : Option String)
    (system : FileSystem) : Run :=
  let (result, world) := (Run.whole services arguments userDirectory).run.run { system }
  { result, log := world.log, system := world.system }

end ImportChart
