import SpanMachine.Execution.Run
import SpanMachine.Proofs.Execution.Effect

/-!
# Steps and what they execute

A step executes the instruction that the pointer is at, unless the run has ended or the
pointer is behind the last instruction. The instructions that a run has executed, each
with the state in which it was executed, are its history.
-/

namespace SpanMachine

namespace Run

theorem machine_follow (run : Run) (program : Program) (move : Move) :
    (run.follow program move).2.machine = run.machine := by
  cases move with
  | advance => rfl
  | jump target =>
      simp only [follow]
      split <;> rfl
  | halt => rfl

theorem steps_succ (run : Run) (range : Range) (program : Program) (count : Nat) :
    run.steps range program (count + 1) =
      ((run.steps range program count).step range program).2 := by
  induction count generalizing run with
  | zero => rfl
  | succ count ih => exact ih (run.step range program).2

/-- The instruction that the next step executes. There is none at the end. -/
def next? (run : Run) (program : Program) : Option Instruction :=
  if run.isRunning then program.code[run.pointer]? else none

/-- The instructions that a number of steps execute, each with the run in front of it. -/
def history (run : Run) (range : Range) (program : Program) : Nat → List (Run × Instruction)
  | 0 => []
  | count + 1 =>
    ((run.next? program).map fun instruction => (run, instruction)).toList ++
      (run.step range program).2.history range program count

theorem history_succ (run : Run) (range : Range) (program : Program) (count : Nat) :
    run.history range program (count + 1) =
      run.history range program count ++
        (((run.steps range program count).next? program).map fun instruction =>
          (run.steps range program count, instruction)).toList := by
  induction count generalizing run with
  | zero => simp [history, steps]
  | succ count ih =>
      rw [history, ih, history, List.append_assoc]
      rfl

theorem next?_eq_some_iff {run : Run} {program : Program} {instruction : Instruction} :
    run.next? program = some instruction ↔
      run.status = .running ∧ program.code[run.pointer]? = some instruction := by
  simp [next?, isRunning]

theorem next?_eq_none_iff {run : Run} {program : Program} :
    run.next? program = none ↔ run.status = .running → program.size ≤ run.pointer := by
  simp [next?, isRunning, Program.size]

/-- All that a step can do: what it returns, and the run after it. -/
inductive Outcome (run : Run) (range : Range) (program : Program) : Bool × Run → Prop where
  /-- The run had ended before. -/
  | ended (stopped : run.status ≠ .running) (no_next : run.next? program = none) :
      Outcome run range program (false, run)
  /-- The pointer is behind the last instruction. -/
  | finished (running : run.status = .running) (no_next : run.next? program = none) :
      Outcome run range program (false, { run with status := .halted })
  | advanced {instruction : Instruction} (next : run.next? program = some instruction)
      (no_jump : ¬instruction.Jumps run.machine) (no_halt : instruction.opcode ≠ .halt) :
      Outcome run range program
        (true, { (run.perform range instruction).2 with pointer := run.pointer + 1 })
  | jumped {instruction : Instruction} (next : run.next? program = some instruction)
      (jumps : instruction.Jumps run.machine)
      (within : instruction.magnitude.toNat ≤ program.size) :
      Outcome run range program
        (true, { (run.perform range instruction).2 with pointer := instruction.magnitude.toNat })
  | aborted {instruction : Instruction} (next : run.next? program = some instruction)
      (jumps : instruction.Jumps run.machine)
      (beyond : program.size < instruction.magnitude.toNat) :
      Outcome run range program
        (false, { (run.perform range instruction).2 with
          status := .aborted run.pointer instruction.magnitude })
  | halted {instruction : Instruction} (next : run.next? program = some instruction)
      (halts : instruction.opcode = .halt) :
      Outcome run range program
        (false, { (run.perform range instruction).2 with status := .halted })

theorem step_of_next? {run : Run} {program : Program} {instruction : Instruction}
    (next : run.next? program = some instruction) (range : Range) :
    run.step range program =
      (run.perform range instruction).2.follow program
        (instruction.execute range run.machine run.console).move := by
  rcases next?_eq_some_iff.mp next with ⟨running, fetched⟩
  simp [step, isRunning, running, fetched, perform]

theorem step_of_next?_none {run : Run} {program : Program} (no_next : run.next? program = none)
    (range : Range) :
    run.step range program =
      (false, if run.isRunning then { run with status := .halted } else run) := by
  simp only [next?] at no_next
  simp only [step]
  split
  · rename_i running
    rw [if_pos running] at no_next
    rw [no_next]
  · rfl

theorem outcome (run : Run) (range : Range) (program : Program) :
    Outcome run range program (run.step range program) := by
  cases next : run.next? program with
  | none =>
      rw [step_of_next?_none next]
      by_cases running : run.status = .running
      · simp only [isRunning, running]
        exact .finished running next
      · simp only [isRunning, beq_iff_eq, running, if_false]
        exact .ended running next
  | some instruction =>
      rw [step_of_next? next]
      by_cases jumps : instruction.Jumps run.machine
      · rw [Instruction.move_of_jumps jumps, follow]
        split
        · rename_i within
          exact .jumped next jumps within
        · rename_i beyond
          exact .aborted next jumps (Nat.lt_of_not_le beyond)
      by_cases halts : instruction.opcode = .halt
      · rw [Instruction.move_of_halt halts]
        exact .halted next halts
      · rw [Instruction.move_of_no_jump jumps halts]
        exact .advanced next jumps halts

theorem machine_step_of_none {run : Run} {program : Program} (no_next : run.next? program = none)
    (range : Range) : (run.step range program).2.machine = run.machine := by
  rw [step_of_next?_none no_next]
  simp only
  split <;> rfl

theorem machine_step_of_some {run : Run} {program : Program} {instruction : Instruction}
    (next : run.next? program = some instruction) (range : Range) :
    (run.step range program).2.machine =
      (instruction.execute range run.machine run.console).machine := by
  rw [step_of_next? next, machine_follow]
  rfl

/-- What every instruction keeps of a machine is kept by a whole run. -/
theorem machine_steps_of_execute {range : Range} {invariant : Machine → Prop}
    (executed : ∀ (machine : Machine) (instruction : Instruction) (console : Console),
      invariant machine → invariant (instruction.execute range machine console).machine)
    {run : Run} (holds : invariant run.machine) (program : Program) (count : Nat) :
    invariant (run.steps range program count).machine := by
  induction count with
  | zero => exact holds
  | succ count ih =>
      rw [steps_succ]
      cases next : (run.steps range program count).next? program with
      | none =>
          rw [machine_step_of_none next]
          exact ih
      | some instruction =>
          rw [machine_step_of_some next]
          exact executed _ instruction _ ih

end Run

/-- What lasts on the stacks lasts through a whole run. -/
theorem Stacks.Lasting.steps {property : Stacks → Prop} (lasting : Stacks.Lasting property)
    {run : Run} (holds : property run.machine.store) (range : Range) (program : Program)
    (count : Nat) : property (run.steps range program count).machine.store := by
  have executed (machine : Machine) (instruction : Instruction) (console : Console)
      (holds : property machine.store) :
      property (instruction.execute range machine console).machine.store :=
    lasting.execute holds instruction range console
  exact Run.machine_steps_of_execute executed holds program count

end SpanMachine
