import ImportChart.Diagnostic
import ImportChart.Language.Profile
import ImportChart.Reference

/-!
# From references to files

A path-relative token, one that starts with `./` or `../`, is joined to the directory of the file it
stands in. The suffixes of the language are appended to the joined path in turn, and the first path
so made that is known is the file. Every way to fail is an `Unresolved` cause of its own.

`joinSegments` is the walk of a token over a directory: an empty segment or a dot stays, two dots go
up and fail at the root, and any other segment goes down.
-/

namespace ImportChart

/-- Why a reference leads to no file. -/
inductive Unresolved where
  /-- The token starts with neither `./` nor `../`. -/
  | notPathRelative
  /-- Two dots stand where nothing is left to leave. -/
  | escapesRoot
  /-- No suffix makes a known path of the joined path. -/
  | notFound (base : String)
  deriving DecidableEq, Repr

/-- What a token is resolved to. -/
inductive Resolution where
  | resolved (path : String)
  | unresolved (cause : Unresolved)
  deriving DecidableEq, Repr

/-- The path, if there is one. -/
def Resolution.path? : Resolution → Option String
  | .resolved path => some path
  | .unresolved _ => none

/-- Walks the segments of a token from a directory, given innermost first. -/
def joinSegments : List String → List String → Option (List String)
  | directory, [] => some directory
  | directory, segment :: rest =>
    if segment = "" ∨ segment = "." then joinSegments directory rest
    else if segment = ".." then
      match directory with
      | [] => none
      | _ :: outer => joinSegments outer rest
    else joinSegments (segment :: directory) rest

/-- A token joined to the directory of the file it stands in. -/
def joinRelative (source token : String) : Option String :=
  (joinSegments (Path.directory source).reverse (Path.segments token)).map fun segments =>
    Path.ofSegments segments.reverse

/-- Whether a token is a path from the directory of its file. -/
def isPathRelative (token : String) : Bool :=
  startsWith "./" token || startsWith "../" token

/-- Resolves a token of a file against the known paths, in a language. -/
def Language.resolve (language : Language) (source token : String)
    (known : List String) : Resolution :=
  if !isPathRelative token then .unresolved .notPathRelative
  else
    match joinRelative source token with
    | none => .unresolved .escapesRoot
    | some base =>
      match (language.profile.suffixes.map (base ++ ·)).find? known.contains with
      | some path => .resolved path
      | none => .unresolved (.notFound base)

/-- Resolves a token of a file against the known paths, in the language of the file's path. -/
def resolve (source token : String) (known : List String) : Resolution :=
  (Language.detect source).resolve source token known

/-! ## Files -/

/-- The warning about a reference that leads to no file. -/
def Unresolved.warning (cause : Unresolved) (file : ParsedFile) (reference : ClassifiedReference) :
    Diagnostic :=
  let token := inBackticks reference.token
  match cause with
  | .notFound base =>
    { severity := .warning
      message := "cannot resolve internal reference " ++ token
      code := some .fileNotFound
      file := some file.path
      labels := [⟨reference.span, "no file of the tree matches"⟩]
      help := some ("tried " ++
        ", ".intercalate (file.language.profile.suffixes.map fun suffix =>
          inBackticks (base ++ suffix))) }
  | .escapesRoot =>
    { severity := .warning
      message := "internal reference " ++ token ++ " escapes the root"
      code := some .escapesRoot
      file := some file.path
      labels := [⟨reference.span, "climbs above the root directory"⟩] }
  | .notPathRelative =>
    { severity := .warning
      message := "internal reference " ++ token ++ " is not path-relative"
      code := some .notPathRelative
      file := some file.path
      labels := [⟨reference.span, "not mapped onto a file"⟩]
      help := some ("only references starting with " ++ inBackticks "./" ++ " or " ++
        inBackticks "../" ++ " are resolved") }

/-- Resolves one reference of a file: the dependency, and the warning if it leads nowhere. Only
internal references are looked up. -/
def ParsedFile.resolveReference (file : ParsedFile) (known : List String)
    (reference : ClassifiedReference) : Dependency × Option Diagnostic :=
  if reference.origin = .internal then
    match file.language.resolve file.path reference.token known with
    | .resolved path => (reference.resolve (some path), none)
    | .unresolved cause => (reference.resolve none, some (cause.warning file reference))
  else (reference.resolve none, none)

/-- The dependencies of a file. -/
def ParsedFile.resolve (file : ParsedFile) (known : List String) : ResolvedFile :=
  { path := file.path
    language := file.language
    dependencies := file.references.map fun reference => (file.resolveReference known reference).1 }

/-- The warnings about the references of a file. -/
def ParsedFile.warnings (file : ParsedFile) (known : List String) : List Diagnostic :=
  file.references.filterMap fun reference => (file.resolveReference known reference).2

end ImportChart
