import EditPipeline.Host.Edit

/-!
# Commands from arguments

What the arguments of the program ask for.  Options may be spelled long or short,
short ones may share a dash, and the value of an option stands in the same argument
or in the next one.  Arguments are read from left to right; the first that asks for
help or for the version is enough, whatever follows it.
-/

namespace EditPipeline

/-- A shell whose completions are known. -/
inductive Shell where
  | bash
  | elvish
  | fish
  | powershell
  | zsh
deriving DecidableEq, Repr, Inhabited

/-- The shell of a name. -/
def Shell.ofName? (name : String) : Option Shell :=
  if name = "bash" then some .bash
  else if name = "elvish" then some .elvish
  else if name = "fish" then some .fish
  else if name = "powershell" then some .powershell
  else if name = "zsh" then some .zsh
  else none

/-- What the arguments ask for. -/
inductive Command where
  /-- Edit a project. -/
  | run (config : Path) (options : EditOptions)
  /-- Check a project. -/
  | check (config : Path)
  /-- List the kinds of marker. -/
  | list
  | completions (shell : Shell)
  | help
  | version
deriving DecidableEq, Repr, Inhabited

namespace Command

/-! ## Options -/

/-- An option, apart from how it is spelled. -/
inductive Flag where
  | config
  | dryRun
  | print
  | verbose
  | help
  | version
deriving DecidableEq, Repr

/-- The spellings of a flag after two dashes and after one. -/
structure Spelling where
  flag : Flag
  long : String
  short : Option Char := none
deriving DecidableEq, Repr

/-- The flags that every command takes. -/
def common : List Spelling := [⟨.verbose, "verbose", some 'v'⟩, ⟨.help, "help", some 'h'⟩]

/-- The flag that names the manifest. -/
def configSpelling : Spelling := ⟨.config, "config", some 'c'⟩

/-- What has been read of the arguments. -/
structure Given where
  config : Option Path := none
  dryRun : Bool := false
  print : Bool := false
  shell : Option Shell := none
deriving DecidableEq, Repr, Inhabited

/-- Why reading arguments ends early. -/
inductive Stop where
  | help
  | version
  /-- The arguments are wrong. -/
  | misuse
deriving DecidableEq, Repr

/-- Takes note of a flag without a value.  Only the one for more messages may be
repeated. -/
def Given.mark (given : Given) : Flag → Except Stop Given
  | .config => .error .misuse
  | .dryRun => if given.dryRun then .error .misuse else .ok { given with dryRun := true }
  | .print => if given.print then .error .misuse else .ok { given with print := true }
  | .verbose => .ok given
  | .help => .error .help
  | .version => .error .version

/-- Takes note of the manifest, which must have a name and may be named once. -/
def Given.setConfig (given : Given) (value : String) : Except Stop Given :=
  if value = "" ∨ given.config.isSome then .error .misuse
  else .ok { given with config := some ⟨value⟩ }

/-- Whether an argument is an option by its looks.  A lone dash is none. -/
def looksLikeOption (argument : String) : Bool :=
  argument.toList.head? = some '-' && argument ≠ "-"

/-- Takes the value of an option from the next argument. -/
def takeNext (given : Given) : List String → Except Stop (Given × List String)
  | [] => .error .misuse
  | value :: rest =>
    if looksLikeOption value then .error .misuse
    else do return (← given.setConfig value, rest)

/-- Splits an option at its first equals sign. -/
def splitValue (text : List Char) : List Char × Option (List Char) :=
  match text.dropWhile (· ≠ '=') with
  | [] => (text, none)
  | _ :: value => (text.takeWhile (· ≠ '='), some value)

/-- Reads an option after two dashes. -/
def readLong (spellings : List Spelling) (given : Given) (text : List Char)
    (rest : List String) : Except Stop (Given × List String) :=
  let (name, value?) := splitValue text
  match spellings.find? (·.long = String.ofList name) with
  | none => .error .misuse
  | some spelling =>
    if spelling.flag = .config then
      match value? with
      | none => takeNext given rest
      | some value => do return (← given.setConfig (String.ofList value), rest)
    else if value?.isSome then .error .misuse
    else do return (← given.mark spelling.flag, rest)

/-- Reads options that share one dash.  What follows the letter of an option that
takes a value is its value; an equals sign between them does not count. -/
def readShort (spellings : List Spelling) (given : Given) :
    List Char → List String → Except Stop (Given × List String)
  | [], rest => .ok (given, rest)
  | letter :: more, rest =>
    match spellings.find? (·.short = some letter) with
    | none => .error .misuse
    | some spelling =>
      if spelling.flag = .config then
        match more with
        | [] => takeNext given rest
        | '=' :: value => do return (← given.setConfig (String.ofList value), rest)
        | value => do return (← given.setConfig (String.ofList value), rest)
      else do
        let given ← given.mark spelling.flag
        readShort spellings given more rest

/-- Reads an argument that looks like an option. -/
def readOption (spellings : List Spelling) (given : Given) (argument : String)
    (rest : List String) : Except Stop (Given × List String) :=
  match argument.toList with
  | '-' :: '-' :: text => readLong spellings given text rest
  | _ :: letters => readShort spellings given letters rest
  | [] => .error .misuse

/-! ## Whole commands -/

/-- Takes note of an argument that is no option. -/
abbrev Positional := Given → String → Except Stop Given

/-- The command takes no such arguments. -/
def noPositional : Positional := fun _ _ => .error .misuse

/-- The command takes the name of a shell. -/
def shellPositional : Positional := fun given name =>
  match given.shell, Shell.ofName? name with
  | none, some shell => .ok { given with shell := some shell }
  | _, _ => .error .misuse

/-- Reads the arguments of a command, of which there are at most `fuel`.  After two
dashes nothing is an option. -/
def readArguments (spellings : List Spelling) (positional : Positional) :
    Nat → Given → List String → Except Stop Given
  | _, given, [] => .ok given
  | 0, _, _ :: _ => .error .misuse
  | fuel + 1, given, argument :: rest =>
    if argument = "--" then rest.foldlM positional given
    else if looksLikeOption argument then do
      let (given, rest) ← readOption spellings given argument rest
      readArguments spellings positional fuel given rest
    else do
      let given ← positional given argument
      readArguments spellings positional fuel given rest

/-- The path of the manifest unless another one is given. -/
def defaultConfig : Path := ⟨"comet.toml"⟩

/-- The command of a name with its arguments. -/
def ofName (name : String) (arguments : List String) : Except Stop Command :=
  let read (spellings : List Spelling) (positional : Positional) :=
    readArguments (spellings ++ common) positional arguments.length {} arguments
  if name = "run" then do
    let given ← read [configSpelling, ⟨.dryRun, "dry-run", none⟩, ⟨.print, "print", none⟩]
      noPositional
    return .run (given.config.getD defaultConfig) ⟨given.dryRun, given.print⟩
  else if name = "check" then do
    let given ← read [configSpelling] noPositional
    return .check (given.config.getD defaultConfig)
  else if name = "list" then do
    let _ ← read [] noPositional
    return .list
  else if name = "completions" then do
    let given ← read [] shellPositional
    match given.shell with
    | some shell => return .completions shell
    | none => throw .misuse
  else throw .misuse

/-- The names of all commands. -/
def names : List String := ["run", "check", "list", "completions", "help"]

/-- Whether help can be given on some names. -/
def hasHelp : List String → Bool
  | [] => true
  | [name] => names.contains name
  | [first, name] => first = "help" && names.contains name
  | _ => false

/-- Reads the arguments from the first one on, of which there are at most `fuel`. -/
def readFirst : Nat → List String → Except Stop Command
  | _, [] => .error .misuse
  | 0, _ :: _ => .error .misuse
  | fuel + 1, argument :: rest =>
    if argument = "--" then .error .misuse
    else if looksLikeOption argument then do
      let (_, rest) ← readOption (⟨.version, "version", some 'V'⟩ :: common) {} argument rest
      readFirst fuel rest
    else if argument = "help" then
      if hasHelp rest then .ok .help else .error .misuse
    else ofName argument rest

/-- The command that the arguments ask for; nothing if they are wrong. -/
def ofArguments? (arguments : List String) : Option Command :=
  match readFirst arguments.length arguments with
  | .ok command => some command
  | .error .help => some .help
  | .error .version => some .version
  | .error .misuse => none

end Command

end EditPipeline
