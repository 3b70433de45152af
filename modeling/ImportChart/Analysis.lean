import ImportChart.Ordered.Table
import ImportChart.Reference.Classification
import ImportChart.Reference.Resolution
import ImportChart.Settings
import ImportChart.Tree.Build

/-!
# Analyzing a snapshot

A snapshot is a tree with the contents of its files at one time. Its analysis takes the files of the
tree in order, those that a language recognizes or all of them, up to a limit, and finds the
dependencies of each. Every file of the tree may be the target of a reference, whether it is read or
not.

Each file is read by itself (`Snapshot.parseFile`), so a smaller limit gives a beginning of what a
larger one gives.
-/

namespace ImportChart

/-- A tree and the contents of its files. A file without content is empty. -/
structure Snapshot where
  tree : Tree
  contents : Table String String

namespace Snapshot

/-- The snapshot of a list of files with their contents. -/
def ofFiles (files : List (String × String)) : Snapshot :=
  let contents := Table.ofPairs files
  { tree := Tree.ofPaths contents.keys, contents }

/-- The content of the file at a path, if the snapshot holds it. -/
def content? (snapshot : Snapshot) (path : String) : Option String :=
  snapshot.contents.get? path

/-- The text of the file at a path. -/
def text (snapshot : Snapshot) (path : String) : String :=
  (snapshot.content? path).getD ""

/-- The paths of the files that settings select, in the order of the tree. -/
def selected (snapshot : Snapshot) (settings : AnalysisSettings) : List String :=
  snapshot.tree.filePaths.filter fun path =>
    settings.includeUnrecognized || (Language.recognize path).isSome

/-- The paths of the files to be read. -/
def analyzed (snapshot : Snapshot) (settings : AnalysisSettings) : List String :=
  (snapshot.selected settings).take settings.maxFiles

/-- The references of the file at a path. -/
def parseFile (snapshot : Snapshot) (path : String) : ParsedFile :=
  ParsedFile.ofText path (snapshot.text path)

end Snapshot

/-- What is known of a snapshot after its files have been read. -/
structure Analysis where
  /-- The tree of the snapshot, every file with its dependencies. -/
  tree : Tree
  /-- The files read, in the order of the tree. -/
  files : List ResolvedFile
  /-- The references that lead nowhere, in the order of the files. -/
  diagnostics : List Diagnostic

/-- Reads the files of a snapshot. -/
def Snapshot.analyze (snapshot : Snapshot) (settings : AnalysisSettings) : Analysis :=
  let known := snapshot.tree.filePaths
  let parsed := (snapshot.analyzed settings).map snapshot.parseFile
  let files := parsed.map fun file => file.resolve known
  { tree := snapshot.tree.annotate files
    files
    diagnostics := parsed.flatMap fun file => file.warnings known }

/-- The dependencies of each file read, by its path. -/
def Analysis.dependencyTable (analysis : Analysis) : Table String (List Dependency) :=
  Table.ofPairs (analysis.files.map fun file => (file.path, file.dependencies))

end ImportChart
