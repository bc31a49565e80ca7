import SpanMachine.Proofs.Execution.Steps
import SpanMachine.Proofs.Listing.Printing

/-!
# Traced runs

A trace is written and never read. So a run with its trace taken away makes the same steps, and
how a run is traced cannot be seen in anything else.

The trace itself grows by the line of an instruction whenever one is executed, and by nothing
when a step only finds out that the run is over. It is the history of the run, line by line.
-/

namespace SpanMachine

namespace Decimal

theorem value_replicate_append (count : Nat) (text : Bytes) :
    value (List.replicate count (digit 0) ++ text) = value text := by
  induction count with
  | zero => rfl
  | succ count ih => exact ih

theorem isDigit_of_mem_padded {width number : Nat} {byte : UInt8}
    (byte_mem : byte ∈ padded width number) : Byte.isDigit byte = true := by
  rcases List.mem_append.mp byte_mem with zero_mem | digit_mem
  · cases List.eq_of_mem_replicate zero_mem
    decide
  · exact isDigit_of_mem_ofNat digit_mem

/-- A padded numeral has the same value, and its width if it is not longer anyway. -/
theorem padded_spec (width number : Nat) :
    isNumeral (padded width number) = true ∧ value (padded width number) = number ∧
      (padded width number).length = max width (ofNat number).length := by
  refine ⟨?_, ?_, ?_⟩
  · have not_empty : padded width number ≠ [] :=
      List.append_ne_nil_of_right_ne_nil _ (ofNat_ne_nil number)
    simp only [isNumeral, Bool.and_eq_true, Bool.not_eq_true', List.isEmpty_eq_false_iff,
      List.all_eq_true]
    exact ⟨not_empty, fun _ => isDigit_of_mem_padded⟩
  · exact (value_replicate_append _ _).trans (value_ofNat number)
  · simp only [padded, Bytes.padLeft, List.length_append, List.length_replicate]
    omega

end Decimal

namespace Instruction

/-- The line of an executed instruction without its end. -/
def traceRow (instruction : Instruction) (index : Nat) : Bytes :=
  ascii "[" ++ Decimal.padded 4 index ++ ascii "]" ++ instruction.text

theorem lineFeed_not_mem_traceRow (instruction : Instruction) (index : Nat) :
    Byte.lineFeed ∉ instruction.traceRow index := by
  intro feed_mem
  simp only [traceRow, List.mem_append] at feed_mem
  rcases feed_mem with ((opening | digit_mem) | closing) | text_mem
  · exact absurd opening (by decide)
  · exact absurd (Decimal.isDigit_of_mem_padded digit_mem) (by decide)
  · exact absurd closing (by decide)
  · exact absurd (isPrinted_of_mem_text text_mem) (by decide)

end Instruction

namespace Run

/-- The run with its trace taken away. -/
def untraced (run : Run) : Run :=
  { run with traced := false, trace := [] }

theorem untraced_follow (run : Run) (program : Program) (move : Move) :
    run.untraced.follow program move = (run.follow program move).map id untraced := by
  cases move with
  | advance => rfl
  | jump target =>
      simp only [follow]
      split <;> rfl
  | halt => rfl

theorem untraced_step (run : Run) (range : Range) (program : Program) :
    run.untraced.step range program = (run.step range program).map id untraced := by
  have same_next : run.untraced.next? program = run.next? program := rfl
  cases next : run.next? program with
  | none =>
      simp only [step_of_next?_none next, step_of_next?_none (same_next.trans next)]
      by_cases running : run.status = .running
      · simp only [isRunning, untraced, running]
        rfl
      · simp only [isRunning, untraced, beq_iff_eq, running, if_false]
        rfl
  | some instruction =>
      simp only [step_of_next? next, step_of_next? (same_next.trans next)]
      have performed : (run.untraced.perform range instruction).2 =
          (run.perform range instruction).2.untraced := rfl
      rw [performed]
      exact untraced_follow _ program _

theorem untraced_steps (run : Run) (range : Range) (program : Program) (count : Nat) :
    run.untraced.steps range program count = (run.steps range program count).untraced := by
  induction count with
  | zero => rfl
  | succ count ih =>
      simp only [steps_succ, ih, untraced_step]
      rfl

/-- The lines of the instructions that a number of steps execute, without their ends. -/
def traceRows (run : Run) (range : Range) (program : Program) (count : Nat) : List Bytes :=
  (run.history range program count).map fun (before, instruction) =>
    instruction.traceRow before.pointer

theorem traceRows_succ (run : Run) (range : Range) (program : Program) (count : Nat) :
    run.traceRows range program (count + 1) =
      run.traceRows range program count ++
        (run.steps range program count).traceRows range program 1 := by
  rw [traceRows, history_succ, List.map_append]
  simp [traceRows, history]

theorem traced_step (run : Run) (range : Range) (program : Program) :
    (run.step range program).2.traced = run.traced := by
  have outcome := run.outcome range program
  generalize run.step range program = result at outcome
  cases outcome with
  | ended | finished | advanced | jumped | aborted | halted => rfl

theorem traced_steps (run : Run) (range : Range) (program : Program) (count : Nat) :
    (run.steps range program count).traced = run.traced := by
  induction count with
  | zero => rfl
  | succ count ih =>
      simp only [steps_succ, traced_step]
      exact ih

theorem trace_step {run : Run} (traced : run.traced = true) (range : Range) (program : Program) :
    (run.step range program).2.trace =
      run.trace ++ (run.traceRows range program 1).flatMap (· ++ [Byte.lineFeed]) := by
  have outcome := run.outcome range program
  generalize run.step range program = result at outcome
  cases outcome with
  | ended _ no_next | finished _ no_next => simp [traceRows, history, no_next]
  | advanced next | jumped next | aborted next | halted next =>
      simp [traceRows, history, next, perform, traced, Instruction.traceLine,
        Instruction.traceRow]

theorem trace_steps {run : Run} (traced : run.traced = true) (range : Range) (program : Program)
    (count : Nat) :
    (run.steps range program count).trace =
      run.trace ++ (run.traceRows range program count).flatMap (· ++ [Byte.lineFeed]) := by
  induction count with
  | zero => exact (List.append_nil _).symm
  | succ count ih =>
      have still_traced : (run.steps range program count).traced = true :=
        (run.traced_steps range program count).trans traced
      rw [steps_succ, trace_step still_traced, ih, run.traceRows_succ, List.flatMap_append,
        List.append_assoc]

/-- The lines of a trace are the executed instructions, in their order. -/
theorem splitOn_trace_steps (input : Bytes) (range : Range) (program : Program) (count : Nat) :
    ((start input true).steps range program count).trace.splitOn Byte.lineFeed =
      (start input true).traceRows range program count ++ [[]] := by
  rw [trace_steps rfl]
  apply Listing.splitOn_flatMap_lineFeed
  intro row row_mem
  rcases List.mem_map.mp row_mem with ⟨⟨before, instruction⟩, -, rfl⟩
  exact instruction.lineFeed_not_mem_traceRow before.pointer

end Run

end SpanMachine
