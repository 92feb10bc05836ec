import EditPipeline.Command.Arguments
import EditPipeline.Host.Check

/-!
# Executing commands

What a command prints, with which code it ends, and which files it leaves behind.
A command that cannot get at its project prints nothing but the error.
-/

namespace EditPipeline

/-- How a command ends. -/
inductive ExitCode where
  | success
  /-- The project cannot be worked on, or something is wrong with it. -/
  | failure
  /-- The arguments are wrong. -/
  | misuse
deriving DecidableEq, Repr, Inhabited

/-- The number of the code. -/
def ExitCode.toNat : ExitCode → Nat
  | .success => 0
  | .failure => 1
  | .misuse => 2

/-- What a command leaves behind. -/
structure Printed where
  exitCode : ExitCode
  /-- What it prints to the first stream. -/
  out : String := ""
  /-- What it prints to the stream for errors. -/
  err : String := ""
  files : FileSystem

namespace Command

/-! ## Texts -/

/-- The name of the program. -/
def programName : String := "comet"

/-- The name of the program with its version. -/
def versionText : String := programName ++ " 0.1.0\n"

/-- How the program is used. -/
def usage : String :=
  "Usage: " ++ programName ++ " [OPTIONS] <COMMAND>\n\n"
  ++ "Commands:\n"
  ++ "  run [-c PATH] [--dry-run] [--print]  edit the program of a project\n"
  ++ "  check [-c PATH]                      initialize editors without editing\n"
  ++ "  list                                 list the kinds of marker\n"
  ++ "  completions SHELL                    print completions for a shell\n"
  ++ "  help                                 print this text\n\n"
  ++ "Options:\n"
  ++ "  -c, --config PATH  the manifest, comet.toml by default\n"
  ++ "  -v, --verbose      say more\n"
  ++ "  -h, --help         print this text\n"
  ++ "  -V, --version      print the version\n"

/-- The completions of the commands' names for a shell. -/
def completionsText (shell : Shell) : String :=
  let words := " ".intercalate names
  match shell with
  | .bash => "complete -W '" ++ words ++ "' " ++ programName ++ "\n"
  | .zsh => "compdef '_arguments \"1:command:(" ++ words ++ ")\"' " ++ programName ++ "\n"
  | .fish => "complete -c " ++ programName ++ " -f -a '" ++ words ++ "'\n"
  | .elvish =>
      "set edit:completion:arg-completer[" ++ programName ++ "] = \x7b|@words| put " ++ words
        ++ " \x7d\n"
  | .powershell =>
      "Register-ArgumentCompleter -Native -CommandName " ++ programName ++ " -ScriptBlock \x7b "
        ++ ", ".intercalate (names.map fun name => "'" ++ name ++ "'") ++ " \x7d\n"

/-! ## Errors -/

/-- Why a command cannot get at its project, or cannot write what it made. -/
inductive Error where
  | manifest (error : ManifestError)
  | program (error : ProgramError)
  | markers (error : ValidationError)
  | write (error : WriteError)

/-- The words of the error and of its causes, and what to do about it. -/
def Error.text : Error → String
  | .manifest error => withHelp (manifestChain error) error.help?
  | .program error => withHelp error.chain none
  | .markers error => withHelp [error.message] error.help?
  | .write error => withHelp error.chain none
where
  /-- The words of an error with the help for it. -/
  withHelp (chain : List String) (help : Option String) : String :=
    "error: " ++ chainText chain ++ "\n" ++
      match help with
      | some help => "help: " ++ help ++ "\n"
      | none => ""
  /-- The words of an error of a manifest and of its cause. -/
  manifestChain (error : ManifestError) : List String :=
    error.message ::
      match error with
      | .unreadable _ fault => [fault.message]
      | .misshapen _ error => [error.problem.message]
      | _ => []

/-! ## Execution -/

/-- What the lines of a report print to one of the streams. -/
def printLines (toErrors : Bool) (lines : List ReportLine) : String :=
  String.join ((lines.filter (·.toErrors = toErrors)).map fun line => line.terminal ++ "\n")

/-- Prints a report. -/
def printReport (good : Bool) (lines : List ReportLine) (files : FileSystem) : Printed :=
  { exitCode := if good then .success else .failure
    out := printLines false lines
    err := printLines true lines
    files }

/-- Prints an error. -/
def printError (error : Error) (files : FileSystem) : Printed :=
  { exitCode := .failure, err := error.text, files }

/-- A project with its program and its markers. -/
structure Project where
  file : ManifestFile
  program : Program
  markers : List (Marker Unit)

/-- Reads all of a project. -/
def openProject (config : Path) (files : FileSystem) : Except Error Project := do
  let file ← (ManifestFile.read config files).mapError .manifest
  let program ← (Host.loadProgram file.programPath files).mapError .program
  let markers ← (Host.resolve Unit program).mapError .markers
  return { file, program, markers }

/-- Executes a command. -/
def execute (command : Command) (files : FileSystem) : Printed :=
  match command with
  | .run config options =>
    match openProject config files with
    | .error error => printError error files
    | .ok project =>
      match Host.edit project.file project.program project.markers options () files with
      | (.error error, files) => printError (.write error) files
      | (.ok report, files) => printReport report.isSuccess report.lines files
  | .check config =>
    match openProject config files with
    | .error error => printError error files
    | .ok project =>
      let report := Host.check config project.program project.markers ()
      printReport report.isValid report.lines files
  | .list => printReport true Host.kindsReport.lines files
  | .completions shell => { exitCode := .success, out := completionsText shell, files }
  | .help => { exitCode := .success, out := usage, files }
  | .version => { exitCode := .success, out := versionText, files }

/-- Executes the command that the arguments ask for. -/
def executeArguments (arguments : List String) (files : FileSystem) : Printed :=
  match ofArguments? arguments with
  | some command => command.execute files
  | none => { exitCode := .misuse, err := usage, files }

/-! ## Paths -/

/-- The paths that a command may read or write, as far as the files that are known
tell. -/
def paths (command : Command) (files : FileSystem) : List Path :=
  let project (config : Path) (more : ManifestFile → List Path) :=
    config ::
      match ManifestFile.read config files with
      | .error _ => []
      | .ok file => file.programPath :: more file
  match command with
  | .run config _ =>
    project config fun file => file.outputPath :: file.snapshotsDir?.toList
  | .check config => project config fun _ => []
  | _ => []

end Command

end EditPipeline
