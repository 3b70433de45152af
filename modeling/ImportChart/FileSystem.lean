import ImportChart.Ordered.Table
import ImportChart.Text.Path
import ImportChart.Text.Position

/-!
# File systems

A file system holds regular files and directories, each at a place: the names that lead to it from
the root. A path is walked name by name, from the root if it starts with a slash and from the
working directory otherwise. A dot stays at its directory and two dots leave it; a path that ends in
a slash leads to a directory only.

A file may be protected from being read or from being written. `FileSystem.read` and
`FileSystem.write` fail as the system calls do, and a write that succeeds changes one place
(`FileSystem.get?_put`).
-/

namespace ImportChart

/-- What lies at a place. -/
inductive Entry where
  | file (content : List UInt8)
  | directory
  deriving DecidableEq, Repr

/-- A place, as the names that lead to it from the root. -/
abbrev Place := List String

/-- Files and directories. -/
structure FileSystem where
  /-- What lies at each place below the root. -/
  entries : Table Place Entry
  /-- The place where relative paths start. -/
  workingDirectory : Place
  /-- The places that no file may be read from. -/
  unreadable : List Place := []
  /-- The places that no file may be written to. -/
  unwritable : List Place := []

/-- Why a path cannot be read or written. -/
inductive FileError where
  | notFound
  | notADirectory
  | isADirectory
  | nameTooLong
  /-- The file is protected. -/
  | denied
  /-- The path holds the character that ends a path for the system. -/
  | endsEarly
  deriving DecidableEq, Repr

/-- What the system says of an error. -/
def FileError.message : FileError → String
  | notFound => "No such file or directory (os error 2)"
  | notADirectory => "Not a directory (os error 20)"
  | isADirectory => "Is a directory (os error 21)"
  | nameTooLong => "File name too long (os error 36)"
  | denied => "Permission denied (os error 13)"
  | endsEarly => "file name contained an unexpected NUL byte"

namespace FileSystem

/-- What lies at a place. The root is a directory. -/
def get? (system : FileSystem) (place : Place) : Option Entry :=
  if place = [] then some .directory else system.entries.get? place

/-- Fails unless a directory lies at a place. -/
def expectDirectory (system : FileSystem) (place : Place) : Except FileError Unit :=
  match system.get? place with
  | some .directory => .ok ()
  | some (.file _) => .error .notADirectory
  | none => .error .notFound

/-- Whether a name is longer than names may be. -/
def isLongName (name : String) : Bool :=
  decide (255 < byteSize name.toList)

/-- The place that a name leads to from a directory. -/
def follow (system : FileSystem) (place : Place) (name : String) : Except FileError Place :=
  match system.expectDirectory place with
  | .error cause => .error cause
  | .ok () =>
    if name = "." then .ok place
    else if name = ".." then .ok place.dropLast
    else if isLongName name then .error .nameTooLong
    else if (system.get? (place ++ [name])).isNone then .error .notFound
    else .ok (place ++ [name])

/-- The place that names lead to. -/
def walk (system : FileSystem) (place : Place) : List String → Except FileError Place
  | [] => .ok place
  | name :: rest =>
    match system.follow place name with
    | .error cause => .error cause
    | .ok next => system.walk next rest

/-- The place where a path starts. -/
def startOf (system : FileSystem) (path : String) : Place :=
  if startsWith "/" path then [] else system.workingDirectory

/-- Fails if no file system has a path. -/
def checkPath (path : String) : Except FileError Unit :=
  if '\x00' ∈ path.toList then .error .endsEarly
  else if path = "" then .error .notFound
  else if 4095 < byteSize path.toList then .error .nameTooLong
  else .ok ()

/-- The place of a path. -/
def locate (system : FileSystem) (path : String) : Except FileError Place :=
  match checkPath path with
  | .error cause => .error cause
  | .ok () =>
    match system.walk (system.startOf path) (Path.namedSegments path) with
    | .error cause => .error cause
    | .ok place =>
      if endsWith "/" path then (system.expectDirectory place).map fun _ => place else .ok place

/-- The content of the regular file at a place, if one lies there. -/
def content? (system : FileSystem) (place : Place) : Option (List UInt8) :=
  match system.get? place with
  | some (.file content) => some content
  | _ => none

/-- Whether a regular file lies at a path. -/
def isFile (system : FileSystem) (path : String) : Bool :=
  match system.locate path with
  | .ok place => (system.content? place).isSome
  | .error _ => false

/-- The place of the directory at a path. -/
def directoryAt? (system : FileSystem) (path : String) : Option Place :=
  match system.locate path with
  | .ok place => if system.get? place = some .directory then some place else none
  | .error _ => none

/-- The content of the file at a place. -/
def readAt (system : FileSystem) (place : Place) : Except FileError (List UInt8) :=
  match system.get? place with
  | some (.file content) => if place ∈ system.unreadable then .error .denied else .ok content
  | some .directory => .error .isADirectory
  | none => .error .notFound

/-- The content of the file at a path. -/
def read (system : FileSystem) (path : String) : Except FileError (List UInt8) :=
  match system.locate path with
  | .error cause => .error cause
  | .ok place => system.readAt place

/-- The place where a path puts a file. -/
def destination (system : FileSystem) (path : String) : Except FileError Place :=
  match checkPath path with
  | .error cause => .error cause
  | .ok () =>
    let names := Path.namedSegments path
    match names.getLast? with
    | none => .error .isADirectory
    | some name =>
      match system.walk (system.startOf path) names.dropLast with
      | .error cause => .error cause
      | .ok parent =>
        match system.expectDirectory parent with
        | .error cause => .error cause
        | .ok () =>
          if name = "." ∨ name = ".." ∨ endsWith "/" path then .error .isADirectory
          else if isLongName name then .error .nameTooLong
          else if system.get? (parent ++ [name]) = some .directory then .error .isADirectory
          else if parent ++ [name] ∈ system.unwritable then .error .denied
          else .ok (parent ++ [name])

/-- Puts something at a place. -/
def put (system : FileSystem) (place : Place) (entry : Entry) : FileSystem :=
  { system with entries := system.entries.enter place entry }

/-- Writes a file, in the place of the file that is there. -/
def write (system : FileSystem) (path : String) (content : List UInt8) :
    Except FileError FileSystem :=
  (system.destination path).map fun place => system.put place (.file content)

/-- The names that lead from a place to all that lies below it. -/
def namesBelow (system : FileSystem) (place : Place) : List (List String) :=
  (system.entries.keys.filter fun other => place.isPrefixOf other).map fun other =>
    other.drop place.length

/-! ## Making file systems -/

/-- Makes the directories that lead to a place, and the place itself one, where nothing is yet. -/
def makeDirectory (system : FileSystem) (place : Place) : FileSystem :=
  ((List.range place.length).map fun n => place.take (n + 1)).foldl
    (fun system place =>
      if (system.get? place).isNone then system.put place .directory else system) system

/-- Makes a file and the directories that lead to it. -/
def makeFile (system : FileSystem) (place : Place) (content : List UInt8) : FileSystem :=
  (system.makeDirectory place.dropLast).put place (.file content)

/-- The file system with nothing but a working directory. -/
def empty (workingDirectory : Place) : FileSystem :=
  makeDirectory { entries := [], workingDirectory } workingDirectory

/-! ## Reading what was written -/

/-- What is put at a place lies there, and nothing else changes. -/
theorem get?_put (system : FileSystem) (place other : Place) (entry : Entry) (h : place ≠ []) :
    (system.put place entry).get? other =
      if place = other then some entry else system.get? other := by
  unfold get? put
  by_cases ho : other = []
  · subst ho
    simp [h]
  · simp only [if_neg ho, Table.get?_enter]

end FileSystem

end ImportChart
