import SpanMachine.Command.Invocation

/-!
# The command line program

The host that acts on the real files and standard streams, and the program that makes
an invocation on it. Everything written to the standard output is passed on at once,
so that a run can be watched.
-/

namespace SpanMachine

namespace Process

/-- A text in the form in which streams and files take it. -/
def pack (text : Bytes) : ByteArray :=
  ⟨text.toArray⟩

/-- The name of a path given on the command line. -/
def pathName (path : Bytes) : String :=
  (String.fromUTF8? (pack path)).getD ""

/-- Goes from state to state until there is a result. -/
partial def iterate {State Result : Type} (advance : State → IO (State ⊕ Result))
    (state : State) : IO Result := do
  match ← advance state with
  | .inl next => iterate advance next
  | .inr result => return result

/-- Reads a piece of a stream, and returns all that was read when no more can be read. -/
def readPiece (stream : IO.FS.Stream) (before : ByteArray) : IO (ByteArray ⊕ Bytes) := do
  let piece ← try stream.read (USize.ofNat Source.pieceSize) catch _ => pure .empty
  if piece.isEmpty then
    return .inr before.toList
  else
    return .inl (before ++ piece)

/-- Reads a stream up to its end. -/
def readAll (stream : IO.FS.Stream) : IO Bytes :=
  iterate (readPiece stream) .empty

/-- Reads the file at a path, if it can be opened. -/
def readFile? (path : Bytes) : IO (Option Bytes) := do
  try
    let file ← IO.FS.Handle.mk (pathName path) .read
    let content ← readAll (.ofHandle file)
    return some content
  catch _ =>
    return none

/-- Opens the file at a path for writing, if that is possible. -/
def createFile? (path : Bytes) : IO (Option IO.FS.Handle) := do
  try
    let file ← IO.FS.Handle.mk (pathName path) .write
    return some file
  catch _ =>
    return none

/-- Writes a text to the standard output, and passes it on. -/
def writeOutput (text : Bytes) : IO Unit := do
  let stream ← IO.getStdout
  stream.write (pack text)
  stream.flush

/-- The host that acts on the system the program runs on. -/
def host : Host IO where
  Handle := IO.FS.Handle
  readFile? := readFile?
  createFile? := createFile?
  appendFile file text := file.write (pack text)
  readInput := do readAll (← IO.getStdin)
  writeOutput := writeOutput
  writeErrors text := do (← IO.getStderr).write (pack text)
  iterate := iterate

end Process

end SpanMachine

def main (arguments : List String) : IO UInt32 := do
  let commandLine := SpanMachine.CommandLine.ofArguments
    (arguments.map fun argument => argument.toUTF8.toList)
  let status ← SpanMachine.Command.perform SpanMachine.Process.host commandLine
  return UInt32.ofNat status.code
