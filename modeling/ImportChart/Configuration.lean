import ImportChart.Failure
import ImportChart.FileSystem
import ImportChart.Text.Utf8
import ImportChart.Toml.Reader

/-!
# Where settings come from

A run reads at most one configuration file: the one that its user names, or else the one of the
working directory, or else the one in the user's configuration directory. Without any of them the
settings are the defaults. A file that the user names has to be there; the others count only if they
are files.
-/

namespace ImportChart

/-- Why a configuration file is read. -/
inductive ConfigurationOrigin where
  /-- The user named it. -/
  | explicit
  /-- It lies in the working directory. -/
  | nearby
  /-- It lies in the user's configuration directory. -/
  | platform
  deriving DecidableEq, Repr

/-- How an origin is told to the user. -/
def ConfigurationOrigin.name : ConfigurationOrigin → String
  | explicit => "explicit"
  | nearby => "local"
  | platform => "platform"

/-- A configuration file to be read. -/
structure ConfigurationSource where
  origin : ConfigurationOrigin
  path : String
  deriving DecidableEq, Repr

namespace ConfigurationSource

/-- The path below a directory that holds configuration. -/
def pathBelow (directory : String) : String :=
  directory ++ "/depscope/config.toml"

/-- The sources that count if nobody names one, most important first. -/
def standard (userDirectory : Option String) : List ConfigurationSource :=
  { origin := .nearby, path := "depscope/config.toml" } ::
    (userDirectory.map fun directory => { origin := .platform, path := pathBelow directory }).toList

/-- The source that a run reads, if there is one. -/
def find? (system : FileSystem) (named userDirectory : Option String) :
    Option ConfigurationSource :=
  match named with
  | some path => some { origin := .explicit, path }
  | none => (standard userDirectory).find? fun source => system.isFile source.path

/-- The settings that a source holds. -/
def read (source : ConfigurationSource) (system : FileSystem) :
    Except ConfigurationError Settings :=
  match system.read source.path with
  | .error .notFound => .error (.missing source.path)
  | .error _ => .error (.unreadable source.path)
  | .ok bytes =>
    match Utf8.text? bytes with
    | none => .error (.unreadable source.path)
    | some text =>
      match (Document.ofToml? text).bind Settings.ofDocument? with
      | none => .error (.invalid source.path)
      | some settings => .ok settings

end ConfigurationSource

end ImportChart
