import ImportChart.Diagnostic
import ImportChart.Document.Record
import ImportChart.Reference
import ImportChart.Text.Blank

/-!
# Settings

`Settings` are what a user writes, and any value is accepted there. `RenderOptions` are what a
diagram is drawn with. `RenderSettings.validate` makes options of settings, or tells which setting
is wrong: the direction first, then the depth limit.
-/

namespace ImportChart

/-- The way the arrows of a diagram point. -/
inductive Direction where
  /-- From top to bottom. -/
  | topBottom
  /-- From the top down, another word for the same. -/
  | topDown
  | bottomTop
  | rightLeft
  | leftRight
  deriving DecidableEq, Repr

namespace Direction

/-- Every direction, in the order in which they are listed to users. -/
def all : List Direction :=
  [topBottom, topDown, bottomTop, rightLeft, leftRight]

/-- The two letters of a direction. -/
def letters : Direction → String
  | topBottom => "TB"
  | topDown => "TD"
  | bottomTop => "BT"
  | rightLeft => "RL"
  | leftRight => "LR"

/-- The direction of a text, in letters of either case and with space around them. -/
def ofText? (text : String) : Option Direction :=
  let letters := (trimmed text.toList).map Char.toUpper
  all.find? fun direction => direction.letters.toList = letters

end Direction

/-- Which files are analyzed. -/
structure AnalysisSettings where
  /-- The most files to be read, in the order of the tree. -/
  maxFiles : Nat := 1000
  /-- Files whose path selects no language are read too. -/
  includeUnrecognized : Bool := false
  deriving DecidableEq, Repr

/-- How a diagram is drawn, as the user wrote it. -/
structure RenderSettings where
  direction : String := "LR"
  showExternal : Bool := true
  showBuiltin : Bool := false
  maxDepth : Option Int := none
  styled : Bool := true
  deriving DecidableEq, Repr

/-- All settings. -/
structure Settings where
  analysis : AnalysisSettings := {}
  render : RenderSettings := {}
  deriving DecidableEq, Repr

/-- How a diagram is drawn. -/
structure RenderOptions where
  direction : Direction := .leftRight
  showExternal : Bool := true
  showBuiltin : Bool := false
  /-- The deepest level of directories whose files are drawn. -/
  maxDepth : Option Nat := none
  styled : Bool := true
  deriving DecidableEq, Repr

/-- Whether dependencies of an origin are drawn. -/
def RenderOptions.shows (options : RenderOptions) : Origin → Bool
  | .internal => true
  | .external => options.showExternal
  | .builtin => options.showBuiltin

/-- Whether files at a depth are drawn. -/
def RenderOptions.admitsDepth (options : RenderOptions) (depth : Nat) : Bool :=
  options.maxDepth.all fun limit => decide (depth ≤ limit)

/-- What is wrong with settings. -/
inductive SettingsError where
  | invalidDirection (text : String)
  | negativeDepth (depth : Int)
  deriving DecidableEq, Repr

/-- What a user is told about wrong settings. -/
def SettingsError.diagnostic : SettingsError → Diagnostic
  | .invalidDirection text =>
    { severity := .error
      message := "invalid direction " ++ inBackticks text
      code := some .invalidDirection
      help := some "use one of TB, TD, BT, RL, LR" }
  | .negativeDepth depth =>
    { severity := .error
      message := "max depth must not be negative, got " ++ toString depth
      code := some .negativeDepth
      help := some "omit the max depth to traverse the whole tree" }

/-- The direction that a text names. -/
def Direction.parse (text : String) : Except SettingsError Direction :=
  match Direction.ofText? text with
  | some direction => .ok direction
  | none => .error (.invalidDirection text)

/-- The options of settings. -/
def RenderSettings.validate (settings : RenderSettings) : Except SettingsError RenderOptions :=
  match Direction.parse settings.direction with
  | .error wrong => .error wrong
  | .ok direction =>
    match settings.maxDepth with
    | none =>
      .ok { direction, showExternal := settings.showExternal, showBuiltin := settings.showBuiltin
            styled := settings.styled }
    | some depth =>
      if depth < 0 then .error (.negativeDepth depth)
      else
        .ok { direction, showExternal := settings.showExternal, showBuiltin := settings.showBuiltin
              maxDepth := some depth.toNat, styled := settings.styled }

/-! ## Settings in documents -/

namespace RenderSettings

/-- The render settings of a document. -/
def ofDocument? (document : Document) : Option RenderSettings :=
  match document.fields? ["direction", "show_external", "show_builtin", "max_depth", "styled"] with
  | some [direction, showExternal, showBuiltin, maxDepth, styled] =>
    (Document.field? "LR" Document.text? direction).bind fun direction =>
    (Document.field? true Document.flag? showExternal).bind fun showExternal =>
    (Document.field? false Document.flag? showBuiltin).bind fun showBuiltin =>
    (Document.field? none (Document.nullable? Document.signed?) maxDepth).bind fun maxDepth =>
    (Document.field? true Document.flag? styled).map fun styled =>
      { direction, showExternal, showBuiltin, maxDepth, styled }
  | _ => none

end RenderSettings

/-- The analysis settings of a document. -/
def AnalysisSettings.ofDocument? (document : Document) : Option AnalysisSettings :=
  match document.fields? ["max_files", "include_unrecognized"] with
  | some [maxFiles, includeUnrecognized] =>
    (Document.field? 1000 Document.natural? maxFiles).bind fun maxFiles =>
    (Document.field? false Document.flag? includeUnrecognized).map fun includeUnrecognized =>
      { maxFiles, includeUnrecognized }
  | _ => none

/-- The settings of a document. What it leaves out keeps its default. -/
def Settings.ofDocument? (document : Document) : Option Settings :=
  match document.fields? ["analysis", "render"] with
  | some [analysis, render] =>
    (Document.field? {} AnalysisSettings.ofDocument? analysis).bind fun analysis =>
    (Document.field? {} RenderSettings.ofDocument? render).map fun render => { analysis, render }
  | _ => none

end ImportChart
