import SpanMachine.Command.FileSystem
import SpanMachine.Command.Invocation

/-!
# Simulated invocations

A simulated host keeps the standard input, what was written to the two outputs, and the
state of a file system. An invocation on such a host is a function: of its arguments,
its input and the files it finds, it makes an exit status, two texts and the files it
leaves behind.

A run need not end, so a simulated host goes from state to state only a given number of
times, and there is a conclusion only if they are enough.
-/

namespace SpanMachine

/-- What an invocation sees and changes, beside the files of its file system. -/
structure World (Files : Type) where
  input : Bytes
  output : Bytes := []
  errors : Bytes := []
  files : Files

/-- What an invocation leaves behind. -/
structure Conclusion (Files : Type) where
  status : ExitStatus
  output : Bytes := []
  errors : Bytes := []
  files : Files

/-- Actions that change a world, or do not come to an end. -/
abbrev Simulated (fileSystem : FileSystem) : Type → Type :=
  StateT (World fileSystem.Files) Option

namespace Simulated

variable {fileSystem : FileSystem} {State Result : Type}

/-- Goes from state to state until there is a result, but no more often than `fuel` allows. -/
def iterateWithin (advance : State → Simulated fileSystem (State ⊕ Result)) :
    Nat → State → Simulated fileSystem Result
  | 0, _ => failure
  | fuel + 1, state => do
    match ← advance state with
    | .inl next => iterateWithin advance fuel next
    | .inr result => return result

/-- Gives up the standard input. -/
def readInput : Simulated fileSystem Bytes :=
  modifyGet fun world => (world.input, { world with input := [] })

/-- Reads the file at a path. -/
def readFile? (path : Bytes) : Simulated fileSystem (Option Bytes) := do
  let world ← get
  return fileSystem.read? world.files path

/-- Opens the file at a path for writing. -/
def createFile? (path : Bytes) : Simulated fileSystem (Option fileSystem.File) :=
  modifyGet fun world =>
    match fileSystem.create? world.files path with
    | some (file, files) => (some file, { world with files })
    | none => (none, world)

/-- Writes to the end of a file. -/
def appendFile (file : fileSystem.File) (text : Bytes) : Simulated fileSystem Unit :=
  modify fun world => { world with files := fileSystem.append world.files file text }

/-- Writes to the standard output. -/
def writeOutput (text : Bytes) : Simulated fileSystem Unit :=
  modify fun world => { world with output := world.output ++ text }

/-- Writes to the error output. -/
def writeErrors (text : Bytes) : Simulated fileSystem Unit :=
  modify fun world => { world with errors := world.errors ++ text }

/-- The host that acts on a world. -/
def host (fileSystem : FileSystem) (fuel : Nat) : Host (Simulated fileSystem) where
  Handle := fileSystem.File
  readFile? := readFile?
  createFile? := createFile?
  appendFile := appendFile
  readInput := readInput
  writeOutput := writeOutput
  writeErrors := writeErrors
  iterate advance := iterateWithin advance fuel

/-- What an action leaves behind when it ends, if it starts in the given world. -/
def conclude? (action : Simulated fileSystem ExitStatus) (world : World fileSystem.Files) :
    Option (Conclusion fileSystem.Files) :=
  (action.run world).map fun (status, world) =>
    ⟨status, world.output, world.errors, world.files⟩

end Simulated

namespace Command

variable {fileSystem : FileSystem}

/-- Runs a program on the given input. -/
def interpret? (settings : Settings) (program : Program) (input : Bytes)
    (files : fileSystem.Files) (fuel : Nat) : Option (Conclusion fileSystem.Files) :=
  (interpret (Simulated.host fileSystem fuel) settings program).conclude? { input, files }

/-- Does what a command line asks for. -/
def perform? (commandLine : CommandLine) (input : Bytes) (files : fileSystem.Files)
    (fuel : Nat) : Option (Conclusion fileSystem.Files) :=
  (perform (Simulated.host fileSystem fuel) commandLine).conclude? { input, files }

/-- One invocation of the program. -/
def invoke? (arguments : List Bytes) (input : Bytes) (files : fileSystem.Files) (fuel : Nat) :
    Option (Conclusion fileSystem.Files) :=
  perform? (.ofArguments arguments) input files fuel

end Command

end SpanMachine
