import SpanMachine.Execution.Effect
import SpanMachine.Listing.Printer

/-!
# Runs

A run executes the instructions of a program one after the other from the first one
on. It ends well when it reaches a halt or the place after the last instruction, by
walking or by jumping there. A jump beyond that place is the only thing that aborts
it; the pointer then stays at the jump.

A run that is traced keeps a line of text for each instruction that it executes. The
trace is only ever added to.
-/

namespace SpanMachine

/-- Whether a run goes on, and how it ended if it does not. -/
inductive Status where
  | running
  | halted
  /-- The instruction at the index jumped to a target outside the program. -/
  | aborted (index : Nat) (target : UInt64)
  deriving DecidableEq

/-- What a run amounts to. -/
inductive Verdict where
  | completed (curses : Nat)
  | aborted (index : Nat) (target : UInt64)
  deriving DecidableEq

/-- The state of a run between two instructions. -/
structure Run where
  machine : Machine := {}
  console : Console
  pointer : Nat := 0
  status : Status := .running
  traced : Bool := false
  trace : Bytes := []
  deriving DecidableEq

namespace Instruction

/-- The line of an executed instruction in a trace. -/
def traceLine (instruction : Instruction) (index : Nat) : Bytes :=
  ascii "[" ++ Decimal.padded 4 index ++ ascii "]" ++ instruction.text ++ [Byte.lineFeed]

end Instruction

namespace Run

/-- A fresh machine in front of the given input. -/
def start (input : Bytes) (traced : Bool) : Run :=
  { console := ⟨input, []⟩, traced }

/-- The run has not ended. -/
def isRunning (run : Run) : Bool :=
  run.status == .running

/-- Moves the pointer, or ends the run where it cannot be moved. -/
def follow (run : Run) (program : Program) : Move → Bool × Run
  | .advance => (true, { run with pointer := run.pointer + 1 })
  | .jump target =>
    if target.toNat ≤ program.size then
      (true, { run with pointer := target.toNat })
    else
      (false, { run with status := .aborted run.pointer target })
  | .halt => (false, { run with status := .halted })

/-- Executes one instruction without moving the pointer, and returns the move it asks for. -/
def perform (run : Run) (range : Range) (instruction : Instruction) : Move × Run :=
  let effect := instruction.execute range run.machine run.console
  let line := if run.traced then instruction.traceLine run.pointer else []
  (effect.move,
    { run with
      machine := effect.machine
      console := effect.console
      trace := run.trace ++ line })

/-- Executes the next instruction, and tells whether the run goes on after it. -/
def step (run : Run) (range : Range) (program : Program) : Bool × Run :=
  if run.isRunning then
    match program.code[run.pointer]? with
    | none => (false, { run with status := .halted })
    | some instruction =>
      let (move, run) := run.perform range instruction
      run.follow program move
  else
    (false, run)

/-- The run after the given number of steps. -/
def steps (run : Run) (range : Range) (program : Program) : Nat → Run
  | 0 => run
  | count + 1 => (run.step range program).2.steps range program count

/-- Steps until the run has ended, if the given number of steps is enough for that. -/
def finish? (run : Run) (range : Range) (program : Program) : Nat → Option Run
  | 0 => none
  | fuel + 1 =>
    let (goesOn, run) := run.step range program
    if goesOn then run.finish? range program fuel else some run

/-- What the run amounts to. A run that still goes on counts as completed so far. -/
def verdict (run : Run) : Verdict :=
  match run.status with
  | .aborted index target => .aborted index target
  | .running | .halted => .completed run.machine.curses

end Run

end SpanMachine
