/-
**What a command line asks for.**

The arguments name a subcommand, its files and its options. Options may stand before and after
files; after two dashes everything is a file. An option with a value takes it from the same argument
or from the next one, which must not look like an option, and may be given once for a subcommand.
The options for configuration and verbosity may stand before the subcommand too; those after it win.
Reading goes from left to right and ends with the first argument that is wrong or that asks for help
or for the version.
-/

import Scaffold.Tag.Directive

namespace Scaffold.CommandLine

/-- How a model is written. -/
inductive Format where
  | json
  | yaml
  deriving DecidableEq, Repr

instance : Named Format where
  all := [.json, .yaml]
  name
    | .json => "json"
    | .yaml => "yaml"

/-- What is done. -/
inductive Command where
  /-- Shows the classes of source files. -/
  | model (files : List Text) (format : Format)
  /-- Merges a fresh file into an existing one. -/
  | sync (fresh existing : Text) (mode? : Option SyncMode) (delimiter? : Option Text)
    (write : Bool)
  /-- Brings one section of a file up to date. -/
  | section (file name content : Text) (delimiter? : Option Text) (write : Bool)
  /-- Lists the macro keywords. -/
  | macros
  deriving DecidableEq, Repr

/-- A command with what applies to every command. -/
structure Invocation where
  config? : Option Text
  verbosity : Nat
  command : Command
  deriving DecidableEq, Repr

/-- Why there is no invocation. -/
inductive Ending where
  | misuse
  | help
  | version
  deriving DecidableEq, Repr

/-- The subcommands. -/
inductive Subcommand where
  | model
  | sync
  | section
  | macros
  deriving DecidableEq, Repr

instance : Named Subcommand where
  all := [.model, .sync, .section, .macros]
  name
    | .model => "model"
    | .sync => "sync"
    | .section => "section"
    | .macros => "macros"

/-- The options. -/
inductive Parameter where
  | verbose
  | config
  | help
  | version
  | format
  | mode
  | delimiter
  | write
  | name
  | content
  deriving DecidableEq, Repr

namespace Parameter

/-- The name after two dashes. -/
def long : Parameter → String
  | verbose => "verbose"
  | config => "config"
  | help => "help"
  | version => "version"
  | format => "format"
  | mode => "mode"
  | delimiter => "delimiter"
  | write => "write"
  | name => "name"
  | content => "content"

/-- The letter after one dash. -/
def short? : Parameter → Option Char
  | verbose => some 'v'
  | config => some 'c'
  | help => some 'h'
  | version => some 'V'
  | format => some 'f'
  | mode => some 'm'
  | delimiter => some 'd'
  | write => some 'w'
  | name => some 'n'
  | content => none

/-- Whether the option has a value. -/
def takesValue : Parameter → Bool
  | verbose | help | version | write => false
  | config | format | mode | delimiter | name | content => true

/-- Whether a text is a value of the option. No path is empty. -/
def accepts : Parameter → Text → Bool
  | config, value | content, value => !value.isEmpty
  | format, value => (Named.ofName? value : Option Format).isSome
  | mode, value => (Named.ofWord? value : Option SyncMode).isSome
  | _, _ => true

end Parameter

/-- Where reading is: before the subcommand or after it. -/
abbrev Level := Option Subcommand

namespace Level

/-- The options that are known. -/
def parameters : Level → List Parameter
  | none => [.verbose, .config, .help, .version]
  | some .model => [.format, .verbose, .config, .help]
  | some .sync => [.mode, .delimiter, .write, .verbose, .config, .help]
  | some .section => [.name, .content, .delimiter, .write, .verbose, .config, .help]
  | some .macros => [.verbose, .config, .help]

/-- Whether one more file may follow `count` of them. -/
def takesFile (count : Nat) : Level → Bool
  | none | some .macros => false
  | some .model => true
  | some .sync => count < 2
  | some .section => count < 1

end Level

/-- What is given on one side of the subcommand. -/
structure Given where
  flags : List Parameter
  values : List (Parameter × Text)
  files : List Text
  deriving DecidableEq, Repr

namespace Given

/-- Nothing. -/
def empty : Given := ⟨[], [], []⟩

/-- The value of an option. -/
def value? (given : Given) (parameter : Parameter) : Option Text :=
  (given.values.find? fun pair => pair.1 == parameter).map Prod.snd

end Given

/-- What an argument says. The last part is an option whose value has to follow. -/
inductive Token where
  | subcommand (subcommand : Subcommand)
  | help
  | separator
  | file
  | options (marks : List (Parameter × Option Text)) (known : Bool) (open? : Option Parameter)
  deriving DecidableEq, Repr

/-- The option among those known that a text names. -/
def longOption? (level : Level) (name : Text) : Option Parameter :=
  (Level.parameters level).find? fun parameter => parameter.long.toList == name

/-- The option among those known that a letter stands for. -/
def shortOption? (level : Level) (letter : Char) : Option Parameter :=
  (Level.parameters level).find? fun parameter => parameter.short? == some letter

/-- An option by its name, after the two dashes. -/
def Token.ofLong (level : Level) (body : Text) : Token :=
  let name := body.takeWhile fun char => char != '='
  match longOption? level name, body.dropWhile fun char => char != '=' with
  | none, _ => .options [] false none
  | some parameter, [] =>
    if parameter.takesValue then .options [] true (some parameter)
    else .options [(parameter, none)] true none
  | some parameter, _ :: value =>
    if parameter.takesValue then .options [(parameter, some value)] true none
    else .options [] false none

/-- Options by their letters, after the dash. An option with a value takes the rest of the argument,
which an equals sign may introduce. -/
def Token.ofLetters (level : Level) : (letters : Text) → Token
  | [] => .options [] true none
  | letter :: rest =>
    match shortOption? level letter with
    | none => .options [] false none
    | some parameter =>
      if parameter.takesValue then
        match rest with
        | [] => .options [] true (some parameter)
        | '=' :: value => .options [(parameter, some value)] true none
        | value => .options [(parameter, some value)] true none
      else match ofLetters level rest with
        | .options marks known open? => .options ((parameter, none) :: marks) known open?
        | other => other

/-- What an argument says before or after the subcommand; `literal` says whether two dashes came. -/
def Token.of (level : Level) (literal : Bool) (argument : Text) : Token :=
  if literal then .file
  else match level, (Named.ofName? argument : Option Subcommand) with
    | none, some found => .subcommand found
    | _, _ =>
      if level.isNone ∧ argument = "help".toList then .help
      else match argument with
        | ['-', '-'] => .separator
        | '-' :: '-' :: body => .ofLong level body
        | ['-'] => .file
        | '-' :: letters => .ofLetters level letters
        | _ => .file

/-- Whether an argument cannot be the value of the option before it. -/
def looksLikeOption : Text → Bool
  | '-' :: _ :: _ => true
  | _ => false

/-- How far a command line is read. -/
structure Reading where
  level : Level
  /-- What was given before the subcommand. -/
  outer : Given
  given : Given
  literal : Bool
  deriving DecidableEq, Repr

namespace Reading

/-- Nothing read. -/
def start : Reading := ⟨none, .empty, .empty, false⟩

/-- After a subcommand. -/
def enter (reading : Reading) (subcommand : Subcommand) : Reading :=
  { reading with level := some subcommand, outer := reading.given, given := .empty }

/-- After a file. -/
def addFile (reading : Reading) (path : Text) : Except Ending Reading :=
  let given := reading.given
  if path.isEmpty || !Level.takesFile given.files.length reading.level then .error .misuse
  else .ok { reading with given := { given with files := given.files ++ [path] } }

/-- After an option without a value. -/
def addFlag (reading : Reading) (parameter : Parameter) : Except Ending Reading :=
  let given := reading.given
  if parameter = .help then .error .help
  else if parameter = .version then .error .version
  else if parameter ≠ .verbose ∧ parameter ∈ given.flags then .error .misuse
  else .ok { reading with given := { given with flags := given.flags ++ [parameter] } }

/-- After an option with its value. -/
def addValue (reading : Reading) (parameter : Parameter) (value : Text) : Except Ending Reading :=
  let given := reading.given
  if (given.value? parameter).isSome || !parameter.accepts value then .error .misuse
  else .ok { reading with given := { given with values := given.values ++ [(parameter, value)] } }

/-- After an option. -/
def addMark (reading : Reading) (mark : Parameter × Option Text) : Except Ending Reading :=
  match mark.2 with
  | none => reading.addFlag mark.1
  | some value => reading.addValue mark.1 value

/-- Whether the arguments after `help` name what help is wanted for. -/
def isHelpTopic : List Text → Bool
  | [] => true
  | [topic] => topic == "help".toList || (Named.ofName? topic : Option Subcommand).isSome
  | _ => false

/-- After all arguments. -/
def addAll (reading : Reading) : List Text → Except Ending Reading
  | [] => .ok reading
  | argument :: rest =>
    match Token.of reading.level reading.literal argument with
    | .subcommand subcommand => addAll (reading.enter subcommand) rest
    | .help => .error (if isHelpTopic rest then .help else .misuse)
    | .separator => addAll { reading with literal := true } rest
    | .file => do addAll (← reading.addFile argument) rest
    | .options marks known open? => do
      let marked ← marks.foldlM addMark reading
      if known then
        match open? with
        | none => addAll marked rest
        | some parameter =>
          match rest with
          | [] => .error .misuse
          | value :: later =>
            if looksLikeOption value then .error .misuse
            else do addAll (← marked.addValue parameter value) later
      else .error .misuse

/-- The command that was read, if nothing it needs is missing. -/
def command? (reading : Reading) : Option Command :=
  let given := reading.given
  let delimiter? := given.value? .delimiter
  let write := given.flags.contains .write
  match reading.level, given.files with
  | some .model, file :: more =>
    some (.model (file :: more) (((given.value? .format).bind Named.ofName?).getD .json))
  | some .sync, [fresh, existing] =>
    some (.sync fresh existing ((given.value? .mode).bind Named.ofWord?) delimiter? write)
  | some .section, [file] => do
    return .section file (← given.value? .name) (← given.value? .content) delimiter? write
  | some .macros, [] => some .macros
  | _, _ => none

/-- How often the option for more output was given. -/
def verbosity (reading : Reading) : Nat :=
  match reading.given.flags.count .verbose with
  | 0 => reading.outer.flags.count .verbose
  | count => count

end Reading

/-- The invocation that arguments are. -/
def Invocation.ofArguments (arguments : List Text) : Except Ending Invocation := do
  let reading ← Reading.start.addAll arguments
  match reading.command? with
  | none => .error .misuse
  | some command =>
    .ok ⟨(reading.given.value? .config).or (reading.outer.value? .config), reading.verbosity,
      command⟩

end Scaffold.CommandLine
