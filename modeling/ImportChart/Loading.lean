import ImportChart.Analysis
import ImportChart.Failure
import ImportChart.FileSystem
import ImportChart.Text.Utf8

/-!
# Loading a snapshot

The snapshot of a directory holds every regular file that a walk through the directory comes to. The
content of a file is read as text if the analysis is going to need it, and left empty otherwise.

The walk is not a part of this library: it decides what is ignored, and it may fail. `Walk` is any
walk, and loading fails with it or with the first file that cannot be read. `Walk.plain` is the walk
through a directory without ignore files that can be listed to the end.
-/

namespace ImportChart

/-! ## Walks -/

/-- Something that a walk through a directory comes to. -/
structure Visit where
  /-- The names that lead to it from the directory. -/
  names : List String
  /-- Whether it is a regular file. A link is none, whatever it leads to. -/
  isFile : Bool
  deriving DecidableEq, Repr

/-- The path from the directory. -/
def Visit.path (visit : Visit) : String :=
  Path.ofSegments visit.names

/-- Walks through the directory at a path: what the walk comes to, in order, and the reasons for
which it cannot go on. -/
abbrev Walk := FileSystem → String → List (Except String Visit)

/-- Whether some name on the way hides a file. -/
def isHidden (names : List String) : Bool :=
  names.any (startsWith ".")

/-- Whether a path stands for standard input, which holds no files. -/
def isStandardInput (path : String) : Bool :=
  !startsWith "/" path &&
    match Path.namedSegments path with
    | first :: rest => first = "-" && rest.all (· = ".")
    | [] => false

/-- The names that lead from a directory to all below it that is not hidden. -/
def FileSystem.visibleNames (system : FileSystem) (directory : Place) : List (List String) :=
  (system.namesBelow directory).filter fun names => !isHidden names

/-- The walk through a directory that can be listed to the end and holds no ignore files. It comes
to all that is not hidden, in the order of the file system. -/
def Walk.plain : Walk := fun system root =>
  match system.directoryAt? root with
  | none => []
  | some directory =>
    if isStandardInput root then []
    else (system.visibleNames directory).map fun names =>
      .ok { names, isFile := (system.content? (directory ++ names)).isSome }

/-! ## Reading what a walk comes to -/

/-- Whether the analysis reads the file at a path. -/
def isRead (includeUnrecognized : Bool) (path : String) : Bool :=
  includeUnrecognized || (Language.recognize path).isSome

namespace FileSystem

/-- The text of a file below a directory, and nothing if the analysis does not read it. -/
def loadText (system : FileSystem) (directory : Place) (includeUnrecognized : Bool)
    (visit : Visit) : Except FileError String :=
  if isRead includeUnrecognized visit.path then
    (system.readAt (directory ++ visit.names)).map Utf8.lossyText
  else .ok ""

/-- The files that a walk comes to, each with its path and its text. -/
def loadVisits (system : FileSystem) (directory : Place) (includeUnrecognized : Bool) :
    List (Except String Visit) → Except Failure (List (String × String))
  | [] => .ok []
  | .error cause :: _ => .error (.io cause)
  | .ok visit :: rest =>
    if visit.isFile then
      match system.loadText directory includeUnrecognized visit with
      | .error cause => .error (.io cause.message)
      | .ok text =>
        (system.loadVisits directory includeUnrecognized rest).map ((visit.path, text) :: ·)
    else system.loadVisits directory includeUnrecognized rest

/-- The files of the directory at a path, each with its path from there and its text. -/
def loadFiles (system : FileSystem) (walk : Walk) (root : String) (includeUnrecognized : Bool) :
    Except Failure (List (String × String)) :=
  match system.directoryAt? root with
  | none => .error (.io ("input directory not found: " ++ root))
  | some directory => system.loadVisits directory includeUnrecognized (walk system root)

end FileSystem

/-- The snapshot of loaded files. -/
def Snapshot.ofLoaded (files : List (String × String)) : Snapshot where
  tree := Tree.ofPaths (files.map Prod.fst)
  contents := Table.ofPairs files

/-- The snapshot of the directory at a path. -/
def FileSystem.snapshot (system : FileSystem) (walk : Walk) (root : String)
    (includeUnrecognized : Bool) : Except Failure Snapshot :=
  (system.loadFiles walk root includeUnrecognized).map Snapshot.ofLoaded

end ImportChart
