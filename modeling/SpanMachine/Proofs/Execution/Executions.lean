import Mathlib.Data.ENat.Lattice
import Mathlib.Order.CompletePartialOrder
import SpanMachine.Proofs.Execution.Steps

/-!
# How many instructions a run executes

Steps are not the same as executed instructions: the step from behind the last instruction
ends a run without executing anything, and so do all steps after the end. Once a step has
nothing to execute, no later one has. So the instructions of a run are executed by its first
steps without a gap, and as long as there is a next instruction their number is the number of
steps.
-/

namespace SpanMachine

namespace Run

/-- The number of instructions that a run executes, infinite if it never ends. -/
noncomputable def executions (run : Run) (range : Range) (program : Program) : ℕ∞ :=
  ⨆ count, ((run.history range program count).length : ℕ∞)

theorem isSome_next?_iff {run : Run} {program : Program} :
    (run.next? program).isSome ↔ run.status = .running ∧ run.pointer < program.size := by
  rw [← Option.ne_none_iff_isSome, Ne, next?_eq_none_iff]
  simp

theorem next?_step_of_none {run : Run} {program : Program} (no_next : run.next? program = none)
    (range : Range) : (run.step range program).2.next? program = none := by
  have outcome := run.outcome range program
  generalize run.step range program = result at outcome
  cases outcome with
  | ended => exact no_next
  | finished => rfl
  | advanced next | jumped next | aborted next | halted next =>
      rw [next] at no_next
      cases no_next

theorem status_step_of_none {run : Run} {program : Program} (no_next : run.next? program = none)
    (range : Range) : (run.step range program).2.status ≠ .running := by
  have outcome := run.outcome range program
  generalize run.step range program = result at outcome
  cases outcome with
  | ended stopped => exact stopped
  | finished =>
      intro running
      cases running
  | advanced next | jumped next | aborted next | halted next =>
      rw [next] at no_next
      cases no_next

variable {run : Run} {range : Range} {program : Program}

theorem next?_steps_of_none {earlier later : Nat}
    (no_next : (run.steps range program earlier).next? program = none)
    (not_after : earlier ≤ later) : (run.steps range program later).next? program = none := by
  rcases Nat.exists_eq_add_of_le not_after with ⟨extra, rfl⟩
  clear not_after
  induction extra with
  | zero => exact no_next
  | succ extra ih =>
      rw [← Nat.add_assoc, steps_succ]
      exact next?_step_of_none ih range

theorem isSome_next?_of_later {earlier later : Nat}
    (next : ((run.steps range program later).next? program).isSome)
    (not_after : earlier ≤ later) :
    ((run.steps range program earlier).next? program).isSome := by
  rw [← Option.ne_none_iff_isSome] at next ⊢
  intro no_next
  exact next (next?_steps_of_none no_next not_after)

theorem length_history_of_isSome {count : Nat}
    (next : ∀ earlier < count, ((run.steps range program earlier).next? program).isSome) :
    (run.history range program count).length = count := by
  induction count with
  | zero => rfl
  | succ count ih =>
      have before := ih fun earlier earlier_lt => next earlier (by omega)
      rcases Option.isSome_iff_exists.mp (next count (Nat.lt_succ_self count)) with
        ⟨instruction, found⟩
      rw [history_succ, List.length_append, before, found]
      rfl

theorem length_history_le (run : Run) (range : Range) (program : Program) (count : Nat) :
    (run.history range program count).length ≤ count := by
  induction count with
  | zero => exact Nat.le_refl 0
  | succ count ih =>
      rw [history_succ, List.length_append]
      cases (run.steps range program count).next? program with
      | none => exact Nat.le_succ_of_le ih
      | some instruction => exact Nat.succ_le_succ ih

theorem history_of_none {earlier later : Nat}
    (no_next : (run.steps range program earlier).next? program = none)
    (not_after : earlier ≤ later) :
    run.history range program later = run.history range program earlier := by
  rcases Nat.exists_eq_add_of_le not_after with ⟨extra, rfl⟩
  clear not_after
  induction extra with
  | zero => rfl
  | succ extra ih =>
      have still_none := next?_steps_of_none no_next (Nat.le_add_right earlier extra)
      rw [← Nat.add_assoc, history_succ, still_none, ih]
      exact List.append_nil _

theorem length_history_le_of_none {count : Nat}
    (no_next : (run.steps range program count).next? program = none) (later : Nat) :
    (run.history range program later).length ≤ count := by
  rcases Nat.le_total later count with before | after
  · exact (run.length_history_le range program later).trans before
  · rw [history_of_none no_next after]
    exact run.length_history_le range program count

/-- More than `count` instructions are executed if there is a next one after `count` steps. -/
theorem lt_executions_iff {count : Nat} :
    (count : ℕ∞) < run.executions range program ↔
      ((run.steps range program count).next? program).isSome := by
  rw [executions, lt_iSup_iff]
  constructor
  · rintro ⟨later, longer⟩
    rw [← Option.ne_none_iff_isSome]
    intro no_next
    -- Without a next instruction the history would have stopped growing here.
    have bounded := length_history_le_of_none no_next later
    rw [Nat.cast_lt] at longer
    omega
  · intro next
    refine ⟨count + 1, ?_⟩
    rw [length_history_of_isSome, Nat.cast_lt]
    · exact Nat.lt_succ_self count
    · intro earlier earlier_le
      exact isSome_next?_of_later next (Nat.le_of_lt_succ earlier_le)

theorem executions_le_iff {count : Nat} :
    run.executions range program ≤ count ↔
      (run.steps range program count).next? program = none := by
  rw [← not_lt, lt_executions_iff, Option.not_isSome_iff_eq_none]

end Run

end SpanMachine
