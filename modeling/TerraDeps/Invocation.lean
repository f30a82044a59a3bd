/-!
# Invocations

An invocation of the program is a command with options. Options for all commands may stand before
the command's name and after it; the same option may be given at both places, and then the later
counts, but not twice at one place. `Invocation.parse` reads the arguments of the command line from
the left and refuses them at the first fault; whether options contradict each other or something is
missing is asked at the end of a place, first after the command and then before it.
-/

set_option autoImplicit false

namespace TerraDeps

/-- How output is written. -/
inductive OutputFormat where
  | text
  | json
  deriving DecidableEq, Repr

/-- What to do. -/
inductive Command where
  /-- Infer the dependencies of the units with these addresses, or of all units. -/
  | infer (addresses : List String) (format : OutputFormat)
  /-- Resolve the local module sources of these files. -/
  | parse (files : List String)
  /-- Show all units in build order. -/
  | graph (format : OutputFormat)
  deriving DecidableEq, Repr

/-- How much the program tells about its work. -/
inductive Verbosity where
  | debug
  | warn
  | error
  deriving DecidableEq, Repr

/-- A command with the options for all commands. -/
structure Invocation where
  command : Command
  verbosity : Verbosity
  /-- The workspace root, if it is not to be searched. -/
  root : Option String
  /-- The settings file, if it is not that of the root. -/
  config : Option String
  deriving DecidableEq, Repr

/-- Why arguments are no invocation. -/
inductive Refusal where
  /-- A value that an option does not take, or none where it needs one. -/
  | invalidValue
  /-- A value for an option that takes none. -/
  | unexpectedValue
  /-- An argument that is not known where it stands. -/
  | unknownArgument
  /-- A name that is no command. -/
  | unknownCommand
  /-- A command without the files that it needs. -/
  | missingArgument
  /-- Options without a command. -/
  | missingCommand
  /-- Options that exclude each other, or one option twice. -/
  | conflict
  /-- No arguments at all. -/
  | nothingGiven
  /-- The help text was asked for. -/
  | helpWanted
  /-- The version was asked for. -/
  | versionWanted
  deriving DecidableEq, Repr

/-- The exit code after a refusal: asking for help or the version is no fault. -/
def Refusal.exitCode : Refusal → Nat
  | helpWanted => 0
  | versionWanted => 0
  | _ => 2

/-- The refusal in words. -/
def Refusal.message : Refusal → String
  | invalidValue => "an option has no value that it takes"
  | unexpectedValue => "an option that takes no value has one"
  | unknownArgument => "an argument is not known here"
  | unknownCommand => "there is no such command"
  | missingArgument => "no files are given"
  | missingCommand => "no command is given"
  | conflict => "options exclude each other or are given twice"
  | nothingGiven => "no command is given"
  | helpWanted => "Infer build dependencies between Terraform modules"
  | versionWanted => "tfdep 0.1.0"

namespace Invocation

/-- How the program is called. -/
def usage : String := "\n".intercalate [
  "Usage: tfdep [OPTIONS] <COMMAND>",
  "",
  "Commands:",
  "  infer [--format <text|json>] [ADDRESSES]...  Infer module dependencies for build units",
  "  parse <FILES>...                             Print resolved local module paths",
  "  graph [--format <text|json>]                 Print the units in build order",
  "  help [COMMAND]                               Print this text",
  "",
  "Options:",
  "  -v, --verbose        Tell more",
  "  -q, --quiet          Tell errors only",
  "      --root <ROOT>    Workspace root",
  "  -c, --config <FILE>  Path to tfdep.toml",
  "  -h, --help           Print this text",
  "  -V, --version        Print the version"]

/-- The name of a command. -/
inductive CommandName where
  | infer
  | parse
  | graph
  deriving DecidableEq, Repr

/-- The command with a name. -/
def CommandName.ofText? (text : String) : Option CommandName :=
  if text = "infer" then some .infer
  else if text = "parse" then some .parse
  else if text = "graph" then some .graph
  else none

/-- The name under which help on commands is asked for. -/
def helpName : String := "help"

/-- An option that takes a value. -/
inductive ValueOption where
  | root
  | config
  | format
  deriving DecidableEq, Repr

/-- An option that takes no value. -/
inductive Flag where
  | verbose
  | quiet
  | help
  | version
  deriving DecidableEq, Repr

/-- What an option name stands for. -/
inductive OptionName where
  | flag (flag : Flag)
  | valued (option : ValueOption)
  deriving DecidableEq, Repr

/-- Whether the option may be given at a place: before the command's name, which is no place of a
command, or after the name of a command. -/
def OptionName.isKnownAt (place : Option CommandName) : OptionName → Bool
  | flag .version => place.isNone
  | valued .format => place = some .infer || place = some .graph
  | _ => true

/-- The option with a name after two dashes. -/
def longOption? (place : Option CommandName) (name : String) : Option OptionName :=
  let found : Option OptionName :=
    if name = "verbose" then some (.flag .verbose)
    else if name = "quiet" then some (.flag .quiet)
    else if name = "help" then some (.flag .help)
    else if name = "version" then some (.flag .version)
    else if name = "root" then some (.valued .root)
    else if name = "config" then some (.valued .config)
    else if name = "format" then some (.valued .format)
    else none
  found.filter (OptionName.isKnownAt place)

/-- The option with a letter after one dash. -/
def shortOption? (place : Option CommandName) (letter : Char) : Option OptionName :=
  let found : Option OptionName :=
    if letter = 'v' then some (.flag .verbose)
    else if letter = 'q' then some (.flag .quiet)
    else if letter = 'h' then some (.flag .help)
    else if letter = 'V' then some (.flag .version)
    else if letter = 'c' then some (.valued .config)
    else none
  found.filter (OptionName.isKnownAt place)

/-- What was given at one place so far. -/
structure Given where
  verbose : Bool := false
  quiet : Bool := false
  root : Option String := none
  config : Option String := none
  format : Option OutputFormat := none
  /-- The arguments that are no options. -/
  operands : List String := []
  /-- An option that is not settled yet, with its value if it has come. -/
  pending : Option (ValueOption × Option String) := none
  deriving DecidableEq, Repr

namespace Given

/-- A path given as a value, which must not be empty. -/
def path (value : String) : Except Refusal String :=
  if value = "" then .error .invalidValue else .ok value

/-- The output format with a name. -/
def formatOf (name : String) : Except Refusal OutputFormat :=
  if name = "text" then .ok .text
  else if name = "json" then .ok .json
  else .error .invalidValue

/-- What was given, with a value for an option that had none at this place. -/
def setValue (g : Given) (option : ValueOption) (value : String) : Except Refusal Given :=
  match option with
  | .root =>
    if g.root.isSome then .error .conflict
    else (path value).map fun p => { g with root := some p }
  | .config =>
    if g.config.isSome then .error .conflict
    else (path value).map fun p => { g with config := some p }
  | .format =>
    if g.format.isSome then .error .conflict
    else (formatOf value).map fun f => { g with format := some f }

/-- What was given, with the pending option settled. -/
def settle (g : Given) : Except Refusal Given :=
  match g.pending with
  | none => .ok g
  | some (_, none) => .error .invalidValue
  | some (option, some value) => setValue { g with pending := none } option value

/-- Whether the next argument is the value of an option, unless it looks like an option. -/
def awaitsValue (g : Given) : Bool :=
  match g.pending with
  | some (_, none) => true
  | _ => false

/-- What was given, with the awaited value. -/
def supply (g : Given) (value : String) : Given :=
  { g with pending := g.pending.map fun (option, _) => (option, some value) }

/-- What was given, with an option that takes no value. -/
def setFlag (g : Given) (flag : Flag) : Except Refusal Given :=
  match g.settle with
  | .error e => .error e
  | .ok g =>
    match flag with
    | .verbose => if g.verbose then .error .conflict else .ok { g with verbose := true }
    | .quiet => if g.quiet then .error .conflict else .ok { g with quiet := true }
    | .help => .error .helpWanted
    | .version => .error .versionWanted

/-- What was given, with an option and the value attached to it. -/
def setAttached (g : Given) (option : ValueOption) (value : String) : Except Refusal Given :=
  match g.settle with
  | .error e => .error e
  | .ok g => g.setValue option value

/-- What was given, with an option whose value is still to come. -/
def expect (g : Given) (option : ValueOption) : Except Refusal Given :=
  match g.settle with
  | .error e => .error e
  | .ok g => .ok { g with pending := some (option, none) }

/-- What was given, with one more operand. -/
def addOperand (g : Given) (operand : String) : Except Refusal Given :=
  match g.settle with
  | .error e => .error e
  | .ok g => .ok { g with operands := g.operands ++ [operand] }

/-- Whether no option was given. -/
def isEmpty (g : Given) : Bool :=
  !g.verbose && !g.quiet && g.root.isNone && g.config.isNone

end Given

/-- Reads an option name after two dashes, with the value after its first `=` if it has one. -/
def readLong (place : Option CommandName) (g : Given) (name : String) (value : Option String) :
    Except Refusal Given :=
  match longOption? place name, value with
  | none, _ => .error .unknownArgument
  | some (.valued option), some v => g.setAttached option v
  | some (.valued option), none => g.expect option
  | some (.flag _), some _ => .error .unexpectedValue
  | some (.flag flag), none => g.setFlag flag

/-- Reads option letters after a dash. What follows a letter that takes a value is its value, after
an `=` or without. -/
def readShort (place : Option CommandName) (g : Given) : List Char → Except Refusal Given
  | [] => .ok g
  | letter :: rest =>
    match shortOption? place letter with
    | none => .error .unknownArgument
    | some (.valued option) =>
      match rest with
      | [] => g.expect option
      | '=' :: value => g.setAttached option (String.ofList value)
      | value => g.setAttached option (String.ofList value)
    | some (.flag flag) =>
      match g.setFlag flag with
      | .error e => .error e
      | .ok g => readShort place g rest

/-- Reads an argument that is no option. `literal` holds after the argument `--`. -/
def readOperand (place : Option CommandName) (literal : Bool) (g : Given) (text : String) :
    Except Refusal Given :=
  match place with
  | some .infer => g.addOperand text
  | some .parse => g.addOperand text
  | some .graph => .error .unknownArgument
  | none =>
    if literal && ((CommandName.ofText? text).isSome || text = helpName) then
      .error .unknownArgument
    else .error .unknownCommand

/-- The refusal of a request for help on the commands named after it. -/
def helpOn : List String → Refusal
  | [] => .helpWanted
  | [name] =>
    if (CommandName.ofText? name).isSome || name = helpName then .helpWanted else .unknownCommand
  | _ => .unknownCommand

/-- Reads one argument that is not the name of a command. -/
def readArgument (place : Option CommandName) (g : Given) (text : String) :
    Except Refusal Given :=
  match text.toList with
  | '-' :: '-' :: long =>
    let name := String.ofList (long.takeWhile (· != '='))
    match long.dropWhile (· != '=') with
    | [] => readLong place g name none
    | _ :: value => readLong place g name (some (String.ofList value))
  | '-' :: letter :: letters => readShort place g (letter :: letters)
  | _ => if g.awaitsValue then .ok (g.supply text) else readOperand place false g text

/-- Reads the arguments of one place. Before the command this ends at the command's name, which is
given with the arguments after it. -/
def readPlace (place : Option CommandName) (literal : Bool) (g : Given) :
    List String → Except Refusal (Given × Option (CommandName × List String))
  | [] => .ok (g, none)
  | text :: rest =>
    if literal then
      match readOperand place true g text with
      | .error e => .error e
      | .ok g => readPlace place true g rest
    else
      match if place.isNone && !g.awaitsValue then CommandName.ofText? text else none with
      | some name => .ok (g, some (name, rest))
      | none =>
        if place.isNone && !g.awaitsValue && text = helpName then .error (helpOn rest)
        else if text = "--" then readPlace place true g rest
        else
          match readArgument place g text with
          | .error e => .error e
          | .ok g => readPlace place false g rest

/-- What was given at a place, settled and free of contradictions. -/
def finish (g : Given) : Except Refusal Given :=
  match g.settle with
  | .error e => .error e
  | .ok g => if g.verbose && g.quiet then .error .conflict else .ok g

/-- The command with a name and what was given after it. -/
def commandOf (name : CommandName) (g : Given) : Except Refusal Command :=
  match name with
  | .infer => .ok (.infer g.operands (g.format.getD .text))
  | .parse => if g.operands.isEmpty then .error .missingArgument else .ok (.parse g.operands)
  | .graph => .ok (.graph (g.format.getD .text))

/-- How much to tell, if asked to tell more or less. -/
def verbosityOf (verbose quiet : Bool) : Verbosity :=
  if verbose then .debug else if quiet then .error else .warn

/-- The invocation of a command with what was given before and after its name. -/
def join (command : Command) (before after : Given) : Invocation where
  command := command
  verbosity := verbosityOf (before.verbose || after.verbose) (before.quiet || after.quiet)
  root := after.root.or before.root
  config := after.config.or before.config

/-- The refusal of arguments without a command. -/
def withoutCommand (g : Given) : Refusal :=
  match g.settle with
  | .error e => e
  | .ok g => if g.isEmpty then .nothingGiven else .missingCommand

/-- Reads the arguments of the command line. -/
def parse (arguments : List String) : Except Refusal Invocation :=
  match readPlace none false {} arguments with
  | .error e => .error e
  | .ok (before, none) => .error (withoutCommand before)
  | .ok (before, some (name, rest)) => do
    let (after, _) ← readPlace (some name) false {} rest
    let after ← finish after
    let command ← commandOf name after
    let before ← finish before
    return join command before after

end Invocation

end TerraDeps
