import SpanMachine.Proofs.Execution.Ending
import SpanMachine.Proofs.Execution.Executions

/-!
# Programs that only jump forward

A run can only be endless if it comes back to an instruction. Where every jump leads further
down, the pointer grows with each step that goes on: by one, or to the target of a jump. It
cannot grow beyond the place behind the last instruction, so there are no more such steps than
instructions, whatever the values are that decide about the jumps. One more step finds the end.

The invariant of the run is that the pointer is at least the number of steps made so far.
-/

namespace SpanMachine

namespace Program

/-- Every jump leads to a place behind itself, which need not be a place of the program. -/
def JumpsForward (program : Program) : Prop :=
  ∀ (index : Nat) (instruction : Instruction), program.code[index]? = some instruction →
    instruction.opcode = .jump ∨ instruction.opcode = .jumpUnlessPositive →
      index < instruction.magnitude.toNat

theorem jumpsForward_iff {program : Program} :
    program.JumpsForward ↔ ∀ entry ∈ program.code.zipIdx,
      entry.1.opcode = .jump ∨ entry.1.opcode = .jumpUnlessPositive →
        entry.2 < entry.1.magnitude.toNat := by
  constructor
  · rintro forward ⟨instruction, index⟩ entry_mem
    exact forward index instruction (List.mk_mem_zipIdx_iff_getElem?.mp entry_mem)
  · intro forward index instruction fetched
    exact forward (instruction, index) (List.mk_mem_zipIdx_iff_getElem?.mpr fetched)

instance (program : Program) : Decidable program.JumpsForward :=
  decidable_of_iff _ jumpsForward_iff.symm

end Program

namespace Run

/-- Stepping until the end comes to the end that the steps come to, if there are enough of them. -/
theorem finish?_of_stopped {run : Run} {range : Range} {program : Program} {fuel : Nat}
    (stopped : (run.steps range program (fuel + 1)).status ≠ .running) :
    run.finish? range program (fuel + 1) = some (run.steps range program (fuel + 1)) := by
  induction fuel generalizing run with
  | zero =>
      have returned := mt (run.step_fst_iff range program).mp stopped
      simp only [finish?, returned]
      rfl
  | succ fuel ih =>
      rw [finish?]
      by_cases running : (run.step range program).2.status = .running
      · have returned := (run.step_fst_iff range program).mpr running
        simp only [returned, if_true]
        exact ih stopped
      · have returned := mt (run.step_fst_iff range program).mp running
        have at_rest : (run.steps range program 1).status ≠ .running := running
        have rests : run.steps range program (fuel + 2) = run.steps range program 1 :=
          steps_of_stopped at_rest (by omega)
        simp only [returned, rests]
        rfl

theorem verdict_eq_completed_iff {run : Run} :
    run.verdict = .completed run.machine.curses ↔
      ¬∃ index target, run.status = .aborted index target := by
  simp only [verdict]
  cases run.status <;> simp

/-- A run that is aborted has taken a jump out of the program, and the other way round. -/
theorem aborted_iff_escaped {run : Run} {range : Range} {program : Program} {count : Nat}
    (started : run.status = .running) :
    (∃ index target, (run.steps range program count).status = .aborted index target) ↔
      ∃ before instruction, (before, instruction) ∈ run.history range program count ∧
        instruction.Jumps before.machine ∧ program.size < instruction.magnitude.toNat := by
  constructor
  · rintro ⟨index, target, aborted⟩
    rcases last_of_aborted started aborted with ⟨before, instruction, last, escapes, -⟩
    refine ⟨before, instruction, List.mem_of_getLast? last, escapes.jumps, ?_⟩
    rw [escapes.magnitude]
    exact escapes.beyond
  · rintro ⟨before, instruction, executed, jumps, beyond⟩
    exact ⟨_, _, aborted_of_escapes executed ⟨jumps, rfl, beyond, rfl⟩⟩

variable {program : Program}

theorem pointer_lt_step (forward : program.JumpsForward) {run : Run} {range : Range}
    (goes_on : (run.step range program).1 = true) :
    run.pointer < (run.step range program).2.pointer := by
  have outcome := run.outcome range program
  generalize run.step range program = result at outcome goes_on
  cases outcome with
  | ended | finished | aborted | halted => cases goes_on
  | advanced => exact Nat.lt_succ_self _
  | jumped next jumps =>
      have fetched := (next?_eq_some_iff.mp next).2
      exact forward _ _ fetched (jumps.imp_right And.left)

theorem add_le_pointer_steps (forward : program.JumpsForward) {run : Run} {range : Range}
    {count : Nat} (running : (run.steps range program count).status = .running) :
    run.pointer + count ≤ (run.steps range program count).pointer := by
  induction count with
  | zero => exact Nat.le_refl _
  | succ count ih =>
      rw [steps_succ] at running ⊢
      have running_before : (run.steps range program count).status = .running := by
        by_contra stopped
        rw [step_of_stopped stopped] at running
        exact stopped running
      have goes_on := (step_fst_iff _ range program).mpr running
      have grows := pointer_lt_step forward goes_on
      have reached := ih running_before
      omega

theorem next?_steps_size (forward : program.JumpsForward) (run : Run) (range : Range) :
    (run.steps range program program.size).next? program = none := by
  rw [next?_eq_none_iff]
  intro running
  have reached := add_le_pointer_steps forward running
  omega

/--
A program whose jumps lead forward always ends. Its pointer grows with every step that goes on,
it executes no more instructions than it has, and its run is over after at most one step more
than that. It is then completed if no jump out of the program was taken, and aborted otherwise.
-/
theorem ends_of_jumpsForward (range : Range) {program : Program} (forward : program.JumpsForward)
    (input : Bytes) (traced : Bool) :
    let fresh := start input traced
    let run := fresh.steps range program
    let history := fresh.history range program
    (∀ count, ((run count).step range program).1 = true →
        (run count).pointer < (run (count + 1)).pointer) ∧
      (∀ count, (history count).length ≤ program.size) ∧
      ∃ final, fresh.finish? range program (program.size + 1) = some final ∧
        final = run (program.size + 1) ∧ final.status ≠ .running ∧
        (final.verdict = .completed final.machine.curses ↔
          ∀ before instruction, (before, instruction) ∈ history (program.size + 1) →
            instruction.Jumps before.machine → instruction.magnitude.toNat ≤ program.size) ∧
        ((∃ index target, final.verdict = .aborted index target) ↔
          ∃ before instruction, (before, instruction) ∈ history (program.size + 1) ∧
            instruction.Jumps before.machine ∧ program.size < instruction.magnitude.toNat) := by
  intro fresh run history
  have no_next : (run program.size).next? program = none := next?_steps_size forward fresh range
  have next_run (count : Nat) : run (count + 1) = ((run count).step range program).2 :=
    steps_succ fresh range program count
  have stopped : (run (program.size + 1)).status ≠ .running := by
    rw [next_run]
    exact status_step_of_none no_next range
  have aborted_iff : (∃ index target, (run (program.size + 1)).status = .aborted index target) ↔
      ∃ before instruction, (before, instruction) ∈ history (program.size + 1) ∧
        instruction.Jumps before.machine ∧ program.size < instruction.magnitude.toNat :=
    aborted_iff_escaped rfl
  refine ⟨?_, length_history_le_of_none no_next, run (program.size + 1),
    finish?_of_stopped stopped, rfl, stopped, ?_, ?_⟩
  · intro count goes_on
    rw [next_run]
    exact pointer_lt_step forward goes_on
  · rw [verdict_eq_completed_iff, aborted_iff]
    simp only [not_exists, not_and, Nat.not_lt]
  · simp only [verdict_eq_aborted_iff]
    exact aborted_iff

/-- A jump to the end past one that is not taken, and one out of the program that is. -/
theorem ends_of_jumpsForward_two_ways :
    let leaving : Program :=
      ⟨[⟨.push, 1, 5, 0⟩, ⟨.jumpUnlessPositive, 1, 9, 1⟩, ⟨.jump, 0, 4, 2⟩, ⟨.halt, 0, 0, 3⟩], []⟩
    let aborting : Program := ⟨[⟨.push, 1, 5, 0⟩, ⟨.jumpUnlessPositive, 2, 9, 1⟩], []⟩
    leaving.JumpsForward ∧ aborting.JumpsForward ∧
      (∃ final, (start [] false).finish? .bounded leaving 5 = some final ∧
        final.verdict = .completed final.machine.curses) ∧
      ∃ final, (start [] false).finish? .unbounded aborting 3 = some final ∧
        ∃ index target, final.verdict = .aborted index target := by
  intro leaving aborting
  have leaving_forward : leaving.JumpsForward := by decide
  have aborting_forward : aborting.JumpsForward := by decide
  rcases ends_of_jumpsForward .bounded leaving_forward [] false with
    ⟨-, -, final, finished, -, -, completed_iff, -⟩
  rcases ends_of_jumpsForward .unbounded aborting_forward [] false with
    ⟨-, -, last, last_finished, -, -, -, aborted_iff⟩
  refine ⟨leaving_forward, aborting_forward, ⟨final, finished, completed_iff.mpr ?_⟩, last,
    last_finished, aborted_iff.mpr ?_⟩
  · have stays : ∀ entry ∈ (start [] false).history .bounded leaving 5,
        entry.2.Jumps entry.1.machine → entry.2.magnitude.toNat ≤ leaving.size := by
      decide
    intro before instruction executed jumps
    exact stays (before, instruction) executed jumps
  · exact ⟨(start [] false).steps .unbounded aborting 1, ⟨.jumpUnlessPositive, 2, 9, 1⟩,
      by decide, by decide, by decide⟩

end Run

end SpanMachine
