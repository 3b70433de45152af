import ImportChart.Settings

/-!
# Failures of a run

A run fails over the files it reads and writes, over its settings, over the file its settings come
from, or over a record that has no text. A failure keeps its cause; `Failure.message` is what a user
sees of it.
-/

namespace ImportChart

/-- What is wrong with a configuration file. -/
inductive ConfigurationError where
  /-- A file that was asked for is not there. -/
  | missing (path : String)
  /-- The file cannot be read, or is not text. -/
  | unreadable (path : String)
  /-- The text is no configuration. -/
  | invalid (path : String)
  deriving DecidableEq, Repr

/-- What a user is told about a configuration file. -/
def ConfigurationError.message : ConfigurationError → String
  | missing path => "configuration file " ++ inBackticks path ++ " does not exist"
  | unreadable path => "cannot read configuration file " ++ inBackticks path
  | invalid path => "invalid configuration in " ++ inBackticks path

/-- Why a run fails. -/
inductive Failure where
  /-- Reading the input or writing the output. -/
  | io (cause : String)
  /-- Settings that no diagram can be drawn with. -/
  | settings (diagnostic : Diagnostic)
  | configuration (cause : ConfigurationError)
  /-- A record that cannot be written as text. -/
  | exporting (cause : String)
  deriving DecidableEq, Repr

/-- What a user is told. -/
def Failure.message : Failure → String
  | io cause => "I/O error: " ++ cause
  | settings diagnostic => diagnostic.display
  | configuration cause => cause.message
  | exporting cause => "Export error: " ++ cause

/-- Settings that were rejected. -/
def SettingsError.failure (wrong : SettingsError) : Failure :=
  .settings wrong.diagnostic

end ImportChart
