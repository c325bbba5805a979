/-!
# Command lines

`Options.parse` reads the arguments of the program: a command and the files that it works on.
-/
namespace SchemaLayout

/-- What the program is to do. -/
inductive Command where
  /-- Generate, and write the output. -/
  | generate
  /-- Generate, and print an overview. -/
  | check
  deriving DecidableEq, Repr

/-- A command with the paths of its files. -/
structure Options where
  command : Command
  input : String
  config? : Option String
  output? : Option String
  deriving DecidableEq, Repr

/-- Why arguments are refused. -/
inductive OptionsError where
  | noCommand
  | unknownCommand (name : String)
  | unknownArgument (text : String)
  | noValue (name : String)
  | noInput
  deriving DecidableEq, Repr

namespace OptionsError

/-- The wording of an error. -/
def message : OptionsError → String
  | .noCommand => "a command is needed: generate or check"
  | .unknownCommand name => s!"unknown command '{name}'"
  | .unknownArgument text => s!"unexpected argument '{text}'"
  | .noValue name => s!"a value is needed for '{name}'"
  | .noInput => "a value is needed for '--input'"

end OptionsError

namespace Options

/-- What an option of a command sets. -/
inductive Setting where
  | input | config | output
  deriving DecidableEq, Repr

/-- The setting of an option. Only `generate` has an output. -/
def setting? (command : Command) : String → Option Setting
  | "--input" | "-i" => some .input
  | "--config" | "-c" => some .config
  | "--output" | "-o" => if command = .generate then some .output else none
  | _ => none

/-- The settings read so far. -/
structure Given where
  input? : Option String
  config? : Option String
  output? : Option String

/-- The settings with one more; of two for one thing the later counts. -/
def Given.set (given : Given) (value : String) : Setting → Given
  | .input => { given with input? := some value }
  | .config => { given with config? := some value }
  | .output => { given with output? := some value }

/-- Reads the options of a command, each with its value behind it. -/
def readGiven (command : Command) (given : Given) : List String → Except OptionsError Given
  | [] => .ok given
  | [name] =>
    .error (if (setting? command name).isSome then .noValue name else .unknownArgument name)
  | name :: value :: rest =>
    match setting? command name with
    | some setting => readGiven command (given.set value setting) rest
    | none => .error (.unknownArgument name)

/-- The options that follow a command. -/
def ofArguments (command : Command) (arguments : List String) : Except OptionsError Options := do
  let given ← readGiven command ⟨none, none, none⟩ arguments
  match given.input? with
  | some input => return ⟨command, input, given.config?, given.output?⟩
  | none => throw .noInput

/-- Flags in front of the command that ask for messages on the way. There are none, so they are
passed over. -/
def messageFlags : List String := ["--verbose", "-v", "--debug", "-d", "--json-logs"]

/-- The options of an argument list. -/
def parse (arguments : List String) : Except OptionsError Options :=
  match arguments.dropWhile messageFlags.contains with
  | [] => .error .noCommand
  | "generate" :: rest => ofArguments .generate rest
  | "check" :: rest => ofArguments .check rest
  | name :: _ => .error (.unknownCommand name)

end Options

end SchemaLayout
