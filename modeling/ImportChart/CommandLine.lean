import ImportChart.Settings

/-!
# Command lines

A command line names the directory to be charted and may give options, before the directory or after
it. `Arguments.ofWords` reads one word at a time. A value is taken note of when its word is read and
looked at when the next option, the next directory or the end is reached (`Reading.settle`), so an
unknown option is reported before a bad value in front of it.

An option has a long form, whose value may follow an equals sign, and some have a short form,
several of which may share a word. After two dashes no word is an option.
-/

namespace ImportChart

/-- What a run writes. -/
inductive OutputFormat where
  /-- A diagram. -/
  | mermaid
  /-- The tree, the graph and the summary. -/
  | json
  deriving DecidableEq, Repr

/-- What the options of a command line say. -/
structure RunOptions where
  output : String := "out.mmd"
  configuration : Option String := none
  logLevel : String := "info"
  format : OutputFormat := .mermaid
  direction : Option String := none
  hideExternal : Bool := false
  showBuiltin : Bool := false
  maxDepth : Option Int := none
  plain : Bool := false
  /-- The path of the one file to be drawn. -/
  focus : Option String := none
  maxFiles : Option Nat := none
  allFiles : Bool := false
  showWarnings : Bool := false
  deriving DecidableEq, Repr

/-- A command line. -/
structure Arguments where
  /-- The directory to be charted. -/
  input : String
  options : RunOptions := {}
  deriving DecidableEq, Repr

/-- Why a command line starts no run. -/
inductive UsageError where
  | missingInput
  | unknownArgument
  /-- An option lacks its value, or a word is not one of those allowed. -/
  | invalidValue
  /-- A value is no number, or out of range. -/
  | invalidNumber
  | unexpectedValue
  | repeatedOption
  | help
  | version
  deriving DecidableEq, Repr

/-- Settings with the options of a command line put over them. Each option goes one way only. -/
def RunOptions.applyTo (options : RunOptions) (settings : Settings) : Settings :=
  { analysis :=
      { maxFiles := options.maxFiles.getD settings.analysis.maxFiles
        includeUnrecognized := options.allFiles || settings.analysis.includeUnrecognized }
    render :=
      { direction := options.direction.getD settings.render.direction
        showExternal := !options.hideExternal && settings.render.showExternal
        showBuiltin := options.showBuiltin || settings.render.showBuiltin
        maxDepth := options.maxDepth <|> settings.render.maxDepth
        styled := !options.plain && settings.render.styled } }

namespace CommandLine

/-! ## The options -/

/-- An option without a value. -/
inductive Flag where
  | hideExternal
  | showBuiltin
  | plain
  | allFiles
  | showWarnings
  deriving DecidableEq, Repr

/-- An option with a value. -/
inductive Parameter where
  | output
  | configuration
  | logLevel
  | format
  | direction
  | maxDepth
  | focus
  | maxFiles
  deriving DecidableEq, Repr

/-- An option. -/
inductive Choice where
  | flag (flag : Flag)
  | parameter (parameter : Parameter)
  | help
  | version
  deriving DecidableEq, Repr

/-- The option with a long name. -/
def Choice.ofName? (name : String) : Option Choice :=
  match name with
  | "output" => some (.parameter .output)
  | "config" => some (.parameter .configuration)
  | "log-level" => some (.parameter .logLevel)
  | "format" => some (.parameter .format)
  | "direction" => some (.parameter .direction)
  | "hide-external" => some (.flag .hideExternal)
  | "show-builtin" => some (.flag .showBuiltin)
  | "max-depth" => some (.parameter .maxDepth)
  | "plain" => some (.flag .plain)
  | "focus" => some (.parameter .focus)
  | "max-files" => some (.parameter .maxFiles)
  | "all-files" => some (.flag .allFiles)
  | "show-warnings" => some (.flag .showWarnings)
  | "help" => some .help
  | "version" => some .version
  | _ => none

/-- The option with a letter. -/
def Choice.ofLetter? : Char → Option Choice
  | 'o' => some (.parameter .output)
  | 'c' => some (.parameter .configuration)
  | 'h' => some .help
  | 'V' => some .version
  | _ => none

/-! ## Values -/

/-- The number that digits stand for. -/
def natural? (digits : List Char) : Option Nat :=
  if digits.isEmpty || digits.any (!·.isDigit) then none
  else some (digits.foldl (fun n c => n * 10 + (c.toNat - '0'.toNat)) 0)

/-- A natural number of at most sixty-four bits, which may have a plus sign. -/
def count? (text : String) : Option Nat :=
  let digits :=
    match text.toList with
    | '+' :: digits => digits
    | digits => digits
  (natural? digits).filter fun n => decide (n < Nat.pow 2 64)

/-- A number of at most sixty-four bits, which may have a sign. -/
def signed? (text : String) : Option Int :=
  let value :=
    match text.toList with
    | '-' :: digits => (natural? digits).map fun n => -Int.ofNat n
    | '+' :: digits => (natural? digits).map Int.ofNat
    | digits => (natural? digits).map Int.ofNat
  value.filter fun n => decide (-Int.pow 2 63 ≤ n ∧ n < Int.pow 2 63)

/-- Whether a word after a dash looks like a number: digits, a point and an exponent, the point
after a digit and before the exponent, the exponent neither first nor last. -/
def isNumeral (text : List Char) : Bool :=
  let mantissa := text.takeWhile fun c => c != 'e' && c != 'E'
  let exponent := (text.drop mantissa.length).drop 1
  let isPlain := mantissa.length = text.length
  mantissa.all (fun c => c.isDigit || c = '.') && decide (mantissa.count '.' ≤ 1) &&
    mantissa.head? != some '.' && exponent.all Char.isDigit &&
      (isPlain || !(mantissa.isEmpty || exponent.isEmpty))

/-- Options with a flag set. -/
def Flag.set (options : RunOptions) : Flag → RunOptions
  | hideExternal => { options with hideExternal := true }
  | showBuiltin => { options with showBuiltin := true }
  | plain => { options with plain := true }
  | allFiles => { options with allFiles := true }
  | showWarnings => { options with showWarnings := true }

/-- Options with a parameter set. -/
def Parameter.set (options : RunOptions) (value : String) : Parameter → Except UsageError RunOptions
  | output => .ok { options with output := value }
  | configuration => .ok { options with configuration := some value }
  | logLevel => .ok { options with logLevel := value }
  | format =>
    match value with
    | "mermaid" => .ok { options with format := .mermaid }
    | "json" => .ok { options with format := .json }
    | _ => .error .invalidValue
  | direction => .ok { options with direction := some value }
  | maxDepth =>
    match signed? value with
    | some n => .ok { options with maxDepth := some n }
    | none => .error .invalidNumber
  | focus => .ok { options with focus := some value }
  | maxFiles =>
    match count? value with
    | some n => .ok { options with maxFiles := some n }
    | none => .error .invalidNumber

/-! ## Reading words -/

/-- What has been read and not yet looked at. -/
inductive Pending where
  | nothing
  /-- A parameter that waits for its value. -/
  | awaiting (parameter : Parameter)
  | valued (parameter : Parameter) (value : String)
  deriving DecidableEq, Repr

/-- What has been read of a command line. -/
structure Reading where
  input : Option String := none
  options : RunOptions := {}
  /-- The options given. -/
  given : List Choice := []
  pending : Pending := .nothing
  /-- Whether two dashes have been read. -/
  optionsEnded : Bool := false
  deriving DecidableEq, Repr

namespace Reading

/-- Takes an option as given, which it may be once. -/
def give (reading : Reading) (choice : Choice) : Except UsageError Reading :=
  if choice ∈ reading.given then .error .repeatedOption
  else .ok { reading with given := choice :: reading.given }

/-- Sets a parameter. -/
def setParameter (reading : Reading) (parameter : Parameter) (value : String) :
    Except UsageError Reading := do
  let reading ← reading.give (.parameter parameter)
  let options ← parameter.set reading.options value
  .ok { reading with options }

/-- Looks at what has been read. -/
def settle (reading : Reading) : Except UsageError Reading :=
  match reading.pending with
  | .nothing => .ok reading
  | .awaiting _ => .error .invalidValue
  | .valued parameter value => setParameter { reading with pending := .nothing } parameter value

/-- Reads an option that stands alone. -/
def readChoice (reading : Reading) (choice : Choice) : Except UsageError Reading := do
  let reading ← reading.settle
  match choice with
  | .help => .error .help
  | .version => .error .version
  | .parameter parameter => .ok { reading with pending := .awaiting parameter }
  | .flag flag =>
    let reading ← reading.give choice
    .ok { reading with options := flag.set reading.options }

/-- Reads an option with a value in the same word. -/
def readAttached (reading : Reading) (parameter : Parameter) (value : String) :
    Except UsageError Reading := do
  let reading ← reading.settle
  reading.setParameter parameter value

/-- Reads a word after its two dashes. -/
def readLong (reading : Reading) (word : List Char) : Except UsageError Reading :=
  let name := word.takeWhile (· != '=')
  match Choice.ofName? (String.ofList name), word.drop name.length with
  | none, _ => .error .unknownArgument
  | some choice, [] => reading.readChoice choice
  | some (.parameter parameter), _ :: value => reading.readAttached parameter (String.ofList value)
  | some _, _ :: _ => .error .unexpectedValue

/-- Reads the letters of a word after its dash. -/
def readLetters (reading : Reading) : List Char → Except UsageError Reading
  | [] => .ok reading
  | letter :: rest =>
    match Choice.ofLetter? letter, rest with
    | none, _ => .error .unknownArgument
    | some (.parameter parameter), '=' :: value =>
      reading.readAttached parameter (String.ofList value)
    | some (.parameter parameter), c :: value =>
      reading.readAttached parameter (String.ofList (c :: value))
    | some choice, rest =>
      match reading.readChoice choice with
      | .error wrong => .error wrong
      | .ok reading => reading.readLetters rest

/-- Reads a word that is no option: the value waited for, or the directory. -/
def readPlain (reading : Reading) (word : String) : Except UsageError Reading :=
  match reading.optionsEnded, reading.pending with
  | false, .awaiting parameter => .ok { reading with pending := .valued parameter word }
  | _, _ =>
    if reading.input.isSome then .error .unknownArgument
    else (reading.settle).map fun reading => { reading with input := some word }

/-- Whether a word after a dash is the number that the last option waits for. -/
def takesNumeral (reading : Reading) (word : List Char) : Bool :=
  reading.pending = .awaiting .maxDepth && isNumeral word

/-- Reads a word. -/
def readWord (reading : Reading) (word : String) : Except UsageError Reading :=
  if reading.optionsEnded then reading.readPlain word
  else
    match word.toList with
    | ['-', '-'] => .ok { reading with optionsEnded := true }
    | '-' :: '-' :: rest => reading.readLong rest
    | '-' :: c :: rest =>
      if reading.takesNumeral (c :: rest) then reading.readPlain word
      else reading.readLetters (c :: rest)
    | _ => reading.readPlain word

/-- The command line that has been read. -/
def finish (reading : Reading) : Except UsageError Arguments := do
  let reading ← reading.settle
  match reading.input with
  | none => .error .missingInput
  | some input => .ok { input, options := reading.options }

end Reading

end CommandLine

/-- Reads the words of a command line. -/
def Arguments.ofWords (words : List String) : Except UsageError Arguments := do
  let reading ← words.foldlM CommandLine.Reading.readWord {}
  reading.finish

end ImportChart
