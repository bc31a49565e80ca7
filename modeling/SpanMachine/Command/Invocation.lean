import SpanMachine.Bytes.Source
import SpanMachine.Command.Host
import SpanMachine.Command.Session
import SpanMachine.Listing.Draft

/-!
# Invocations

An invocation of the program does what its command line asks for. It acts through a
host, and answers with an exit status.

A listing is loaded first. It is then either printed, to the standard output or to a
file, or run. No file is opened for writing before the listing has been read. A run
hands over what it writes after every step, so that it can be watched while it goes on.
-/

namespace SpanMachine

namespace Command

/-- The explanation that an invalid command line is answered with. -/
def usage : Bytes :=
  ascii (
    "Usage:\n" ++
    "\tsigil <mode> [<options> ...] <filepath>\n" ++
    "\n" ++
    "Filepath:\n" ++
    "\tinstruction listing. if <filepath> is \"-\", the listing is read from stdin\n" ++
    "\n" ++
    "Options:\n" ++
    "\t-V          verbose output. use multiple times to increase verbosity\n" ++
    "\t-o <path>   output file path for -d. if no path is provided, stdout is used\n" ++
    "\t-b <name>   numeric backend. one of: bounded, big\n" ++
    "\t-s <n>      stop after <n> instructions. 0 means no limit\n" ++
    "\t-t          trace every executed instruction to stderr\n" ++
    "\n" ++
    "Modes:\n" ++
    "\t-d          disassemble\n" ++
    "\t-i          interpret\n")

/-- The announcement of what is done next, which only a verbose invocation makes. -/
def phase (settings : Settings) (name : Bytes) : Bytes :=
  if 1 ≤ settings.verbosity then
    Severity.info.tag ++ ascii ": " ++ name ++ ascii "...\n"
  else
    []

/-- Announces that the listing is read. -/
def loading (settings : Settings) : Bytes :=
  phase settings (ascii "loading")

/-- Announces that the listing is printed. -/
def saving (settings : Settings) : Bytes :=
  phase settings (ascii "saving output")

/-- Announces a run and its range. -/
def interpreting (settings : Settings) : Bytes :=
  phase settings (ascii "interpreting(" ++ settings.range.name ++ ascii ")")

/-- The diagnostic of a file that cannot be opened. -/
def cannotOpen (path : Bytes) : Bytes :=
  Diagnostic.text ⟨.error, ascii "IO", ascii "Could not open file " ++ path⟩

/-- The path under which a listing from the standard input is reported. -/
def standardInputPath : Bytes :=
  ascii "<stdin>"

/-- Reads a program from a source, or says why that is impossible. -/
def readSource (source : Source) : Except Bytes Program :=
  let text := source.drain.1
  match Program.ofListing text with
  | .ok program => .ok program
  | .error error => .error (error.text source.path (Listing.lines text))

section

variable {m : Type → Type} [Monad m] (host : Host m)

/-- Opens the listing that the first operand names, or returns a diagnostic. -/
def openListing (commandLine : CommandLine) : m (Except Bytes Source) := do
  if commandLine.readsStandardInput then
    let content ← host.readInput
    return .ok (.ofStream content standardInputPath)
  else
    let path := commandLine.operands.headD []
    match ← host.readFile? path with
    | some content => return .ok (.ofStream content path)
    | none => return .error (cannotOpen path)

/-- Loads the program that the command line names, or says why that is impossible. -/
def load (commandLine : CommandLine) : m (Except Bytes Program) := do
  host.writeErrors (loading commandLine.settings)
  let source ← openListing host commandLine
  return source.bind readSource

/-- Prints a program to the chosen file or to the standard output. -/
def disassemble (settings : Settings) (program : Program) : m ExitStatus := do
  match settings.output with
  | none =>
    host.writeErrors (saving settings)
    host.writeOutput program.toListing
    return .completed
  | some path =>
    match ← host.createFile? path with
    | some file =>
      host.writeErrors (saving settings)
      host.appendFile file program.toListing
      return .completed
    | none =>
      host.writeErrors (cannotOpen path)
      return .refused

/--
Makes one step of a session, after as many as were made before, and hands over what the
step has written. The result is the run when it is over.
-/
def advance (settings : Settings) (program : Program) (state : Run × Nat) :
    m (Run × Nat ⊕ Run) := do
  let (run, executed) := state
  if run.isOver program settings.stepLimit executed then
    return .inr run
  else
    let run := (run.step settings.range program).2
    host.writeErrors run.trace
    host.writeOutput run.console.output
    return .inl (run.quiet, executed + 1)

/-- Runs a program on what is left of the standard input. -/
def interpret (settings : Settings) (program : Program) : m ExitStatus := do
  host.writeErrors (interpreting settings)
  let input ← host.readInput
  let run ← host.iterate (advance host settings program) (Run.start input settings.trace, 0)
  host.writeErrors (run.epilogue program settings)
  return run.exitStatus

/-- Prints or runs a program, as the command line asks for. -/
def carryOut (settings : Settings) (program : Program) : m ExitStatus :=
  if settings.disassemble then
    disassemble host settings program
  else
    interpret host settings program

/-- Does what a command line asks for. -/
def perform (commandLine : CommandLine) : m ExitStatus := do
  if commandLine.isInvalid then
    host.writeErrors commandLine.complaint
    host.writeOutput usage
    return .refused
  else
    match ← load host commandLine with
    | .error message =>
      host.writeErrors message
      return .refused
    | .ok program => carryOut host commandLine.settings program

end

end Command

end SpanMachine
