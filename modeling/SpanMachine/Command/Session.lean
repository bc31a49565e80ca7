import SpanMachine.Command.Settings
import SpanMachine.Execution.Dump
import SpanMachine.Execution.Run

/-!
# Sessions

A session is a run under a step limit. The limit is looked at only when there is an
instruction to execute, so that a run which has just executed its last allowed
instruction may still come to its end by itself.

How a session ended decides the exit status and what is said about it.
-/

namespace SpanMachine

/-- How the program as a whole ended. -/
inductive ExitStatus where
  | completed
  | refused
  | aborted
  | outOfSteps
  deriving DecidableEq

namespace ExitStatus

/-- The number that is handed back to the system. -/
def code : ExitStatus → Nat
  | completed => 0
  | refused => 1
  | aborted => 2
  | outOfSteps => 3

end ExitStatus

namespace Program

/-- The line on which the instruction of an index was found. -/
def originAt (program : Program) (index : Nat) : Nat :=
  (program.code[index]?.map Instruction.origin).getD 0

end Program

namespace Run

/-- The run has ended, or it is about to execute more instructions than it may. -/
def isOver (run : Run) (program : Program) (limit : UInt64) (executed : Nat) : Bool :=
  !run.isRunning ||
    (decide (run.pointer < program.size) && limit != 0 && executed == limit.toNat)

/--
Steps until the run is over, if `fuel` is enough for that, where `executed` is the
number of steps before.
-/
def session? (run : Run) (range : Range) (program : Program) (limit : UInt64) (executed : Nat) :
    Nat → Option Run
  | 0 => none
  | fuel + 1 =>
    if run.isOver program limit executed then
      some run
    else
      (run.step range program).2.session? range program limit (executed + 1) fuel

/-- The run after its output and its trace have been handed over. -/
def quiet (run : Run) : Run :=
  { run with console := { run.console with output := [] }, trace := [] }

/-- The exit status of a session. -/
def exitStatus (run : Run) : ExitStatus :=
  match run.status with
  | .running => .outOfSteps
  | .halted => .completed
  | .aborted _ _ => .aborted

/-- What is said about a session that is over, if anything. -/
def remark? (run : Run) (program : Program) (settings : Settings) : Option Diagnostic :=
  match run.status with
  | .running =>
    some ⟨.warning, ascii "RUN",
      ascii "step limit of " ++ Decimal.ofNat settings.stepLimit.toNat ++
        ascii " reached before instruction " ++ Decimal.ofNat run.pointer⟩
  | .aborted index target =>
    some ⟨.error, ascii "RUN",
      ascii "invalid jump target " ++ Decimal.ofNat target.toNat ++ ascii " at instruction " ++
        Decimal.ofNat index ++ ascii " (line " ++ Decimal.ofNat (program.originAt index) ++
        ascii ")"⟩
  | .halted =>
    if 1 ≤ settings.verbosity then
      some ⟨.info, ascii "RUN",
        ascii "completed with " ++ Decimal.ofNat run.machine.curses ++ ascii " curse(s)"⟩
    else
      none

/-- The dump and the remark that follow a session. -/
def epilogue (run : Run) (program : Program) (settings : Settings) : Bytes :=
  (if 3 ≤ settings.verbosity then run.machine.dump else []) ++
    (match run.remark? program settings with
    | some remark => remark.text
    | none => [])

end Run

end SpanMachine
