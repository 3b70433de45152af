import ImportChart.Run

/-!
# The program

Reads the parts of the disk that a command line is about, runs it, and puts the result back: the
notices to standard error, the output file to the disk.
-/

namespace ImportChart.Main

/-- The path of a place. -/
def pathOf (place : Place) : String :=
  "/" ++ Path.ofSegments place

/-- Adds what the disk holds at a place. -/
def observePlace (system : FileSystem) (place : Place) : IO FileSystem := do
  match ← (IO.FS.realPath (pathOf place)).toBaseIO with
  | .error _ => return system
  | .ok path =>
    if ← path.isDir then return system.makeDirectory place
    match ← (IO.FS.readBinFile path).toBaseIO with
    | .error _ =>
      let system := system.makeFile place []
      return { system with unreadable := place :: system.unreadable }
    | .ok bytes => return system.makeFile place bytes.toList

/-- The place after a name. -/
def placeAfter (place : Place) (name : String) : Place :=
  if name = "." then place else if name = ".." then place.dropLast else place ++ [name]

/-- Adds what the disk holds on the way along a path. -/
def observe (system : FileSystem) (path : String) : IO FileSystem := do
  let visit : FileSystem × Place → String → IO (FileSystem × Place) :=
    fun (system, place) name => do
    let place := placeAfter place name
    return (← observePlace system place, place)
  let (system, _) ← (Path.namedSegments path).foldlM visit (system, system.startOf path)
  return system

/-- Adds what the disk holds below a directory, apart from hidden names and links. -/
partial def observeBelow (system : FileSystem) (place : Place) : IO FileSystem := do
  let system ← observePlace system place
  match ← (IO.FS.realPath (pathOf place)).toBaseIO with
  | .error _ => return system
  | .ok path =>
    if !(← path.isDir) then return system
    let visit (system : FileSystem) (name : String) : IO FileSystem := do
      let below := place ++ [name]
      match ← (IO.FS.realPath (pathOf below)).toBaseIO with
      | .error _ => return system
      | .ok target => if target = path / name then observeBelow system below else return system
    let names := (← path.readDir).toList.map fun entry => entry.fileName
    (names.filter fun name => !startsWith "." name).foldlM visit system

/-- The directory that holds the configuration of the user's programs. -/
def userDirectory : IO (Option String) := do
  match ← IO.getEnv "XDG_CONFIG_HOME" with
  | some directory => if startsWith "/" directory then return some directory
  | none => pure ()
  return (← IO.getEnv "HOME").map (· ++ "/.config")

/-- Adds all that a command line is about. -/
def observeFor (arguments : Arguments) (userDirectory : Option String) : IO FileSystem := do
  let here ← IO.FS.realPath "."
  let system := FileSystem.empty (Path.namedSegments here.toString)
  let options := arguments.options
  let sources := options.configuration.toList ++
    (ConfigurationSource.standard userDirectory).map ConfigurationSource.path
  let system ← (arguments.input :: options.output :: sources).foldlM observe system
  match system.locate arguments.input with
  | .error _ => return system
  | .ok place => observeBelow system place

/-- What is told about a command line that starts no run. -/
def explain : UsageError → String
  | .missingInput => "error: the directory to be charted is missing"
  | .unknownArgument => "error: there is an argument that is not known here"
  | .invalidValue => "error: an option lacks its value, or has one that is not allowed"
  | .invalidNumber => "error: an option has a value that is not a number in range"
  | .unexpectedValue => "error: an option has a value and takes none"
  | .repeatedOption => "error: an option is given twice"
  | .version => "1.0"
  | .help => "\n".intercalate
    ["Charts the imports among the files of a directory.", "",
     "  -o, --output <FILE>       where to write the result (out.mmd)",
     "  -c, --config <FILE>       the configuration file to read",
     "      --log-level <LEVEL>   off, error, warn, info, debug or trace (info)",
     "      --format <FORMAT>     mermaid or json (mermaid)",
     "      --direction <LETTERS> TB, TD, BT, RL or LR",
     "      --hide-external       leave out packages",
     "      --show-builtin        draw modules of the standard library",
     "      --max-depth <N>       the deepest level of directories to draw",
     "      --plain               leave out the styles",
     "      --focus <PATH>        draw one file only",
     "      --max-files <N>       the most files to read",
     "      --all-files           read files of unknown types too",
     "      --show-warnings       show each reference that leads nowhere",
     "  -h, --help                show this text",
     "  -V, --version             show the version"]

/-- Whether a log level shows notices of an importance. -/
def shows (level : String) (importance : NoticeLevel) : Bool :=
  match level.toLower with
  | "off" | "error" => false
  | "info" | "debug" | "trace" => true
  | _ => importance = .warning

/-- What is told about a failure. -/
def failureLine (failure : Failure) : String :=
  let report := failure.report
  let code := (report.code.map fun code => "[" ++ code ++ "]").getD ""
  let help := (report.help.map fun help => "\n  help: " ++ help).getD ""
  "error" ++ code ++ ": " ++ report.text ++ help

/-- Puts the output of a run on the disk. -/
def store (run : Run) (output : String) : IO (Except Failure Unit) := do
  match run.result with
  | .error failure => return .error failure
  | .ok () =>
    let bytes := (run.system.read output).toOption.getD []
    match ← (IO.FS.writeBinFile output ⟨bytes.toArray⟩).toBaseIO with
    | .ok () => return .ok ()
    | .error cause => return .error (.io (toString cause))

/-- Runs a command line on the disk. -/
def execute (arguments : Arguments) : IO UInt32 := do
  let userDirectory ← userDirectory
  let run := run .plain arguments userDirectory (← observeFor arguments userDirectory)
  for notice in run.log do
    if shows arguments.options.logLevel notice.level then IO.eprintln notice.line
  match ← store run arguments.options.output with
  | .ok () => return 0
  | .error failure =>
    IO.eprintln (failureLine failure)
    return 1

end ImportChart.Main

/-- Runs the command line. -/
def main (words : List String) : IO UInt32 := do
  match ImportChart.Arguments.ofWords words with
  | .ok arguments => ImportChart.Main.execute arguments
  | .error .help =>
    IO.println (ImportChart.Main.explain .help)
    return 0
  | .error .version =>
    IO.println (ImportChart.Main.explain .version)
    return 0
  | .error wrong =>
    IO.eprintln (ImportChart.Main.explain wrong)
    return 2
