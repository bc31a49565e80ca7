import SpanMachine.Bytes.Basic

/-!
# Hosts

A host is what an invocation is given to act with: files, the standard streams, and a
way to go on until there is a result. What it does with them is written down once, for
any host. The real host acts on the system that the program runs on; a simulated one
acts on a value that stands for that system, and about it everything is proved.
-/

namespace SpanMachine

/-- The actions that an invocation is made of. -/
structure Host (m : Type → Type) where
  /-- A file that is open for writing. -/
  Handle : Type
  /-- Reads the file at a path, if it can be opened. -/
  readFile? : Bytes → m (Option Bytes)
  /-- Creates or empties the file at a path, if it can be opened for writing. -/
  createFile? : Bytes → m (Option Handle)
  /-- Writes to the end of an open file. -/
  appendFile : Handle → Bytes → m Unit
  /-- Takes all that is left of the standard input. -/
  readInput : m Bytes
  /-- Writes to the standard output. -/
  writeOutput : Bytes → m Unit
  /-- Writes to the error output. -/
  writeErrors : Bytes → m Unit
  /-- Goes from state to state until there is a result. -/
  iterate {State Result : Type} : (State → m (State ⊕ Result)) → State → m Result

end SpanMachine
