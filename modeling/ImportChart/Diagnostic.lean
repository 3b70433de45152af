import ImportChart.Text.Position

/-!
# Diagnostics

A diagnostic tells a user what was found: a message of some severity, a code to look it up by, the
file it is about, the places in that file, and advice. Codes of the hundreds reject settings; those
of the two hundreds warn of references that lead nowhere.
-/

namespace ImportChart

/-- How grave a finding is. -/
inductive Severity where
  /-- The request is rejected. -/
  | error
  /-- The request is answered, with something left out. -/
  | warning
  deriving DecidableEq, Repr

/-- The word for a severity. -/
def Severity.word : Severity → String
  | .error => "error"
  | .warning => "warning"

/-- What a finding is about. -/
inductive DiagnosticCode where
  /-- A direction that is none of the five. -/
  | invalidDirection
  /-- A negative depth limit. -/
  | negativeDepth
  /-- No file of the tree is at any path that was tried. -/
  | fileNotFound
  /-- A relative reference climbs above the root. -/
  | escapesRoot
  /-- An internal reference that no path can be made of. -/
  | notPathRelative
  deriving DecidableEq, Repr

/-- Every code, in order. -/
def DiagnosticCode.all : List DiagnosticCode :=
  [.invalidDirection, .negativeDepth, .fileNotFound, .escapesRoot, .notPathRelative]

/-- The code as users see it. -/
def DiagnosticCode.text : DiagnosticCode → String
  | .invalidDirection => "E100"
  | .negativeDepth => "E101"
  | .fileNotFound => "E200"
  | .escapesRoot => "E201"
  | .notPathRelative => "E202"

/-- A name in the quotes that messages put around names. -/
def inBackticks (name : String) : String :=
  "`" ++ name ++ "`"

/-- A place in a file, and what to say about it. -/
structure Label where
  span : Span
  text : String
  deriving DecidableEq, Repr

/-- A finding. -/
structure Diagnostic where
  severity : Severity
  message : String
  code : Option DiagnosticCode := none
  /-- The path of the file that the labels are places of. -/
  file : Option String := none
  labels : List Label := []
  help : Option String := none
  deriving DecidableEq, Repr

/-- The diagnostic on one line: its severity, its code in brackets, its message. -/
def Diagnostic.display (diagnostic : Diagnostic) : String :=
  diagnostic.severity.word ++
    (match diagnostic.code with
    | none => ""
    | some code => "[" ++ code.text ++ "]") ++
    ": " ++ diagnostic.message

end ImportChart
