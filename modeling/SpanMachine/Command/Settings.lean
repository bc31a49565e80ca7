import SpanMachine.Command.Diagnostic
import SpanMachine.Number.Range

/-!
# Settings

A command line sets options by letters behind a dash. Several letters may share a
dash. An option that takes a value takes the rest of its argument, or the whole next
argument if nothing is left, whatever that looks like. All other arguments are
operands, wherever they stand; two dashes make operands of all arguments after them,
and a single dash is an operand.

The first fault ends the reading. What was set before it stays set, but the operands
are lost.
-/

namespace SpanMachine

/-- The options that take no value. -/
inductive Flag where
  | verbose
  | disassemble
  | interpret
  | trace
  deriving DecidableEq

/-- The options that take a value. -/
inductive Parameter where
  | output
  | stepLimit
  | backend
  deriving DecidableEq

/-- The options of the command line. -/
inductive Choice where
  | flag (chosen : Flag)
  | parameter (chosen : Parameter)
  deriving DecidableEq

/-- What the options have set. -/
structure Settings where
  range : Range := .bounded
  verbosity : Nat := 0
  output : Option Bytes := none
  disassemble : Bool := false
  interpret : Bool := false
  trace : Bool := false
  /-- The greatest number of instructions to execute; zero stands for no limit. -/
  stepLimit : UInt64 := 0
  deriving DecidableEq

/-- Why a command line cannot be read. -/
inductive ArgumentFault where
  | unknownLetter (letter : UInt8)
  | missingValue (parameter : Parameter)
  | invalidStepLimit (value : Bytes)
  | unknownBackend (value : Bytes)
  deriving DecidableEq

/-- A fault and what was set before it. -/
structure Refusal where
  settings : Settings
  fault : ArgumentFault
  deriving DecidableEq

/-- A command line that was read, up to its first fault. -/
structure CommandLine where
  settings : Settings
  operands : List Bytes
  fault : Option ArgumentFault := none
  deriving DecidableEq

namespace Range

/-- The name of a range as a value on the command line. -/
def name : Range → Bytes
  | bounded => ascii "bounded"
  | unbounded => ascii "big"

/-- The range of the given name. -/
def ofName? (name : Bytes) : Option Range :=
  [bounded, unbounded].find? fun range => range.name == name

end Range

namespace Flag

/-- The letter that sets a flag. -/
def letter : Flag → UInt8
  | verbose => 'V'.toUInt8
  | disassemble => 'd'.toUInt8
  | interpret => 'i'.toUInt8
  | trace => 't'.toUInt8

end Flag

namespace Parameter

/-- The letter that announces a value. -/
def letter : Parameter → UInt8
  | output => 'o'.toUInt8
  | stepLimit => 's'.toUInt8
  | backend => 'b'.toUInt8

end Parameter

namespace Choice

/-- The letter of an option. -/
def letter : Choice → UInt8
  | flag chosen => chosen.letter
  | parameter chosen => chosen.letter

/-- All options there are. -/
def all : List Choice :=
  [flag .verbose, flag .disassemble, flag .interpret, flag .trace, parameter .output,
    parameter .stepLimit, parameter .backend]

/-- The option that a letter stands for. -/
def ofLetter? (letter : UInt8) : Option Choice :=
  all.find? fun choice => choice.letter == letter

end Choice

namespace ArgumentFault

/-- A complaint about a letter, after the program's name. -/
def complaint (text : String) (letter : UInt8) : Bytes :=
  ascii "sigil: " ++ ascii text ++ ascii " -- '" ++ [letter] ++ ascii "'\n"

/-- What is said about a fault, on a line of its own. -/
def message : ArgumentFault → Bytes
  | unknownLetter letter => complaint "invalid option" letter
  | missingValue parameter => complaint "option requires an argument" parameter.letter
  | invalidStepLimit value =>
    Diagnostic.text ⟨.error, ascii "OPTIONS", ascii "Invalid step limit: " ++ value⟩
  | unknownBackend value =>
    Diagnostic.text ⟨.error, ascii "OPTIONS", ascii "Unknown backend: " ++ value⟩

end ArgumentFault

namespace Settings

/-- Sets a flag. The verbosity counts how often its flag was set. -/
def enable (settings : Settings) : Flag → Settings
  | .verbose => { settings with verbosity := settings.verbosity + 1 }
  | .disassemble => { settings with disassemble := true }
  | .interpret => { settings with interpret := true }
  | .trace => { settings with trace := true }

/-- Sets an option to a value. -/
def assign (settings : Settings) (value : Bytes) : Parameter → Except Refusal Settings
  | .output => .ok { settings with output := some value }
  | .stepLimit =>
    match Decimal.readWord? value with
    | some limit => .ok { settings with stepLimit := limit }
    | none => .error ⟨settings, .invalidStepLimit value⟩
  | .backend =>
    match Range.ofName? value with
    | some range => .ok { settings with range := range }
    | none => .error ⟨settings, .unknownBackend value⟩

/--
Reads the letters behind a dash. If the last one still wants a value, it is returned
along with the settings.
-/
def readLetters (settings : Settings) : Bytes → Except Refusal (Settings × Option Parameter)
  | [] => .ok (settings, none)
  | letter :: rest =>
    match Choice.ofLetter? letter with
    | none => .error ⟨settings, .unknownLetter letter⟩
    | some (.flag flag) => (settings.enable flag).readLetters rest
    | some (.parameter parameter) =>
      if rest.isEmpty then
        .ok (settings, some parameter)
      else do
        let settings ← settings.assign rest parameter
        return (settings, none)

/-- The letters of an argument that holds options: at least one, behind a dash. -/
def letters? : Bytes → Option Bytes
  | dash :: letter :: rest => if dash = Byte.minus then some (letter :: rest) else none
  | _ => none

/-- The argument after which there are only operands. -/
def lastOption : Bytes :=
  ascii "--"

/-- Reads arguments, the first of which is the value of `pending` if an option waits for one. -/
def readArguments (settings : Settings) (pending : Option Parameter) :
    List Bytes → Except Refusal (Settings × List Bytes)
  | [] =>
    match pending with
    | none => .ok (settings, [])
    | some parameter => .error ⟨settings, .missingValue parameter⟩
  | argument :: rest =>
    match pending with
    | some parameter => do
      let settings ← settings.assign argument parameter
      settings.readArguments none rest
    | none =>
      if argument = lastOption then
        .ok (settings, rest)
      else
        match letters? argument with
        | some letters => do
          let (settings, pending) ← settings.readLetters letters
          settings.readArguments pending rest
        | none => do
          let (settings, operands) ← settings.readArguments none rest
          return (settings, argument :: operands)

end Settings

namespace CommandLine

/-- Reads a command line without the program's name. -/
def ofArguments (arguments : List Bytes) : CommandLine :=
  match Settings.readArguments {} none arguments with
  | .ok (settings, operands) => { settings, operands }
  | .error refusal => ⟨refusal.settings, [], some refusal.fault⟩

/-- There must be an operand, and either a listing is printed or it is run. -/
def isInvalid (commandLine : CommandLine) : Bool :=
  commandLine.operands.isEmpty ||
    commandLine.settings.disassemble == commandLine.settings.interpret

/-- The operand that stands for the standard input. -/
def standardInput : Bytes :=
  ascii "-"

/-- The listing is to be read from the standard input. -/
def readsStandardInput (commandLine : CommandLine) : Bool :=
  commandLine.operands.head? == some standardInput

/-- What is said about the fault of a command line. -/
def complaint (commandLine : CommandLine) : Bytes :=
  match commandLine.fault with
  | some fault => fault.message
  | none => []

end CommandLine

end SpanMachine
