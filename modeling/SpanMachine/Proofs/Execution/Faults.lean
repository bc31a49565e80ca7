import Mathlib.Algebra.Ring.Nat
import SpanMachine.Proofs.Execution.Steps

/-!
# Counting the faults of a run

Each instruction raises a number of curses that can be told from the state in which it is
executed. Nearly always this is one or none: a value is missing, or is no number or code
point that can be used. Only a chain of operators can raise more, one for each stack that
it finds empty and one for each operation without a result.

The curses of a run are the sum of these numbers over its history. A step that executes
nothing raises none.
-/

namespace SpanMachine

namespace Fraction

/-- The answers of a chain of operators. The value of each is the left operand of the next. -/
def chain (range : Range) (operator : Operator) (left : Fraction) :
    List Fraction → List (Answer Fraction)
  | [] => []
  | right :: rest =>
    let answer := combine range operator left right
    answer :: chain range operator answer.value rest

/-- The fraction is an integer and a code point. -/
def IsPoint (value : Fraction) : Prop :=
  value.den = 1 ∧ 0 ≤ value.num ∧ Utf8.IsScalar value.num.toNat

instance (value : Fraction) : Decidable value.IsPoint :=
  inferInstanceAs (Decidable (_ ∧ _))

end Fraction

namespace Instruction

/-- The number of curses that an instruction raises in the given state. -/
def faults (instruction : Instruction) (range : Range) (machine : Machine) (console : Console) :
    Nat :=
  let span := instruction.span.toNat
  let store := machine.store
  match instruction.opcode with
  | .push => if 1 ≤ span ∧ ¬range.Admits instruction.magnitude.toNat then 1 else 0
  | .combine operator =>
    if 2 ≤ span then
      (List.range' 1 span).countP (fun index => (store.peek? index).isNone) +
        (Fraction.chain range operator (store.topOrZero 1)
          ((List.range' 2 (span - 1)).map store.topOrZero)).countP Answer.cursed
    else
      0
  | .enqueue | .putNumber | .jumpUnlessPositive => if (store.peek? span).isNone then 1 else 0
  | .dequeue => if machine.queue.isEmpty then 1 else 0
  | .spread => if (store.peek? 1).isNone then 1 else 0
  | .putPoint => if ∀ top ∈ store.peek? span, ¬top.IsPoint then 1 else 0
  | .getNumber => if (console.readWord.1.bind (Numeral.read? range)).isNone then 1 else 0
  | .getPoint => if console.readPoint.1.isNone then 1 else 0
  | .jump | .halt => 0

end Instruction

namespace Fraction

theorem curses_ofMagnitude (range : Range) (magnitude : UInt64) :
    (ofMagnitude range magnitude).curses =
      if ¬range.Admits magnitude.toNat then 1 else 0 := by
  simp only [ofMagnitude, ite_not]
  split <;> rfl

theorem isPoint_iff {value : Fraction} :
    value.IsPoint ↔ ∃ point, value.toPoint? = some point := by
  rcases value with ⟨num, den⟩
  constructor
  · rintro ⟨den_one, not_negative, scalar⟩
    refine ⟨num.toNat, toPoint?_eq_some_iff.mpr ⟨?_, scalar⟩⟩
    rw [ofInt, Int.toNat_of_nonneg not_negative]
    exact congrArg (Fraction.mk num) den_one
  · rintro ⟨point, found⟩
    rcases toPoint?_eq_some_iff.mp found with ⟨same, scalar⟩
    rcases Fraction.mk.inj same with ⟨rfl, rfl⟩
    exact ⟨rfl, Int.natCast_nonneg point, scalar⟩

end Fraction

namespace Machine

theorem curses_pop (machine : Machine) (index : Nat) :
    (machine.pop index).2.curses =
      machine.curses + if (machine.store.peek? index).isNone then 1 else 0 := by
  simp only [pop, absorb, Stacks.pop_eq, Fraction.curses_orCurse]

theorem curses_top (machine : Machine) (index : Nat) :
    (machine.top index).2.curses =
      machine.curses + if (machine.store.peek? index).isNone then 1 else 0 := by
  simp only [top, absorb, Stacks.top_eq, Fraction.curses_orCurse]

theorem curses_dequeue (machine : Machine) :
    machine.dequeue.2.curses =
      machine.curses + if machine.queue.isEmpty then 1 else 0 := by
  rcases machine with ⟨store, ⟨items⟩, curses⟩
  cases items with
  | nil => rfl
  | cons front rest => rfl

theorem curses_putPoint (machine : Machine) (index : Nat) (console : Console) :
    (machine.putPoint index console).1.curses = machine.curses +
      if ∀ top ∈ machine.store.peek? index, ¬top.IsPoint then 1 else 0 := by
  have popped := machine.curses_pop index
  have answered : (machine.pop index).1 = Fraction.orCurse (machine.store.peek? index) := by
    simp only [pop, Stacks.pop_eq]
  simp only [putPoint, answered]
  cases found : machine.store.peek? index with
  | none => simpa [Fraction.orCurse, Fraction.curse, found] using popped
  | some top =>
      simp only [found, Option.isNone_some, Bool.false_eq_true, if_false, Nat.add_zero] at popped
      cases point : top.toPoint? with
      | none =>
          have no_point : ¬top.IsPoint := by
            simp [Fraction.isPoint_iff, point]
          simp [Fraction.orCurse, point, no_point, curse, popped]
      | some value =>
          have is_point : top.IsPoint := Fraction.isPoint_iff.mpr ⟨value, point⟩
          simp [Fraction.orCurse, point, is_point, popped]

theorem curses_getNumber (machine : Machine) (range : Range) (index : Nat) (console : Console) :
    (machine.getNumber range index console).1.curses = machine.curses +
      if (console.readWord.1.bind (Numeral.read? range)).isNone then 1 else 0 := by
  simp only [getNumber]
  cases console.readWord.1.bind (Numeral.read? range) with
  | none => rfl
  | some value => rfl

/-- One operator of a chain, told by the tops of the stacks in front of it. -/
theorem combineAt_of_tops (range : Range) (operator : Operator) (machine : Machine)
    (index : Nat) :
    let answer := Fraction.combine range operator (machine.store.topOrZero index)
      (machine.store.topOrZero (index + 1))
    let after := combineAt range operator machine index
    after.curses = machine.curses +
        (if (machine.store.peek? index).isNone then 1 else 0) +
        (if (machine.store.peek? (index + 1)).isNone then 1 else 0) +
        (if answer.cursed then 1 else 0) ∧
      after.store.peek? (index + 1) = some answer.value ∧
      ∀ later > index + 1, after.store.peek? later = machine.store.peek? later := by
  intro answer after
  have left_taken : (machine.store.pop index).1 =
      Fraction.orCurse (machine.store.peek? index) := by
    rw [Stacks.pop_eq]
  have right_taken : ((machine.store.pop index).2.pop (index + 1)).1 =
      Fraction.orCurse (machine.store.peek? (index + 1)) := by
    rw [Stacks.pop_eq, Stacks.peek?_pop_of_ne (by omega)]
  have after_eq : after = _ := combineAt_eq range operator machine index
  simp only [left_taken, right_taken, Fraction.value_orCurse, Fraction.curses_orCurse] at after_eq
  rw [after_eq]
  refine ⟨?_, ?_, ?_⟩
  · rw [← Answer.curses_eq]
    rfl
  · exact Stacks.peek?_push_self (by omega) _ _
  · intro later after
    rw [Stacks.peek?_push_of_ne (by omega), Stacks.peek?_pop_of_ne (by omega),
      Stacks.peek?_pop_of_ne (by omega)]

theorem curses_foldl_combineAt (range : Range) (operator : Operator) (count index : Nat)
    (machine : Machine) :
    ((List.range' index (count + 1)).foldl (combineAt range operator) machine).curses =
      machine.curses +
        ((List.range' index (count + 2)).countP (fun each => (machine.store.peek? each).isNone) +
          (Fraction.chain range operator (machine.store.topOrZero index)
            ((List.range' (index + 1) (count + 1)).map machine.store.topOrZero)).countP
              Answer.cursed) := by
  induction count generalizing index machine with
  | zero =>
      rcases combineAt_of_tops range operator machine index with ⟨curses, -, -⟩
      simp only [List.range'_succ, List.range'_zero, List.foldl_cons, List.foldl_nil, curses,
        List.map_cons, List.map_nil, Fraction.chain, List.countP_cons, List.countP_nil]
      omega
  | succ count ih =>
      rcases combineAt_of_tops range operator machine index with ⟨curses, top, kept⟩
      rw [List.range'_succ, List.foldl_cons, ih]
      generalize combineAt range operator machine index = after at *
      -- The next stack holds the result, and the stacks behind it are as they were.
      have result : after.store.topOrZero (index + 1) =
          (Fraction.combine range operator (machine.store.topOrZero index)
            (machine.store.topOrZero (index + 1))).value := by
        rw [Stacks.topOrZero, top, Option.getD_some]
      have same_missing : (List.range' (index + 2) (count + 1)).countP
          (fun each => (after.store.peek? each).isNone) =
            (List.range' (index + 2) (count + 1)).countP
              (fun each => (machine.store.peek? each).isNone) := by
        apply List.countP_congr
        intro later later_mem
        rw [kept later (List.mem_range'_1.mp later_mem).1]
      have same_tops : (List.range' (index + 2) (count + 1)).map after.store.topOrZero =
          (List.range' (index + 2) (count + 1)).map machine.store.topOrZero := by
        apply List.map_congr_left
        intro later later_mem
        simp only [Stacks.topOrZero, kept later (List.mem_range'_1.mp later_mem).1]
      have all_stacks : List.range' index (count + 1 + 2) =
          index :: (index + 1) :: List.range' (index + 2) (count + 1) :=
        rfl
      have next_stacks : List.range' (index + 1) (count + 2) =
          (index + 1) :: List.range' (index + 2) (count + 1) :=
        rfl
      simp only [all_stacks, next_stacks, List.countP_cons, List.map_cons, Fraction.chain, top,
        same_missing, same_tops, result, curses, Option.isNone_some, Bool.false_eq_true, if_false]
      omega

theorem curses_combine (machine : Machine) (range : Range) (operator : Operator) {span : Nat}
    (several : 2 ≤ span) :
    (machine.combine range operator span).curses = machine.curses +
      ((List.range' 1 span).countP (fun index => (machine.store.peek? index).isNone) +
        (Fraction.chain range operator (machine.store.topOrZero 1)
          ((List.range' 2 (span - 1)).map machine.store.topOrZero)).countP Answer.cursed) := by
  rcases Nat.exists_eq_add_of_le' several with ⟨count, rfl⟩
  exact curses_foldl_combineAt range operator count 1 machine

end Machine

namespace Instruction

theorem curses_execute (instruction : Instruction) (range : Range) (machine : Machine)
    (console : Console) :
    (instruction.execute range machine console).machine.curses =
      machine.curses + instruction.faults range machine console := by
  rcases instruction with ⟨opcode, span, magnitude, origin⟩
  cases opcode with
  | push =>
      simp only [execute, Effect.next, faults, Machine.pushMagnitude]
      split
      · rename_i span_zero
        simp [span_zero]
      · rename_i span_ne_zero
        have positive : 1 ≤ span.toNat := Nat.one_le_iff_ne_zero.mpr span_ne_zero
        simp only [Machine.curses_pushAll, Machine.absorb, Fraction.curses_ofMagnitude, positive,
          true_and]
  | combine operator =>
      simp only [execute, Effect.next, faults]
      split
      · rename_i several
        exact machine.curses_combine range operator several
      · rename_i few
        have no_pairs : span.toNat - 1 = 0 := by omega
        simp [Machine.combine, no_pairs]
  | enqueue => exact machine.curses_pop span.toNat
  | dequeue => exact machine.curses_dequeue
  | spread =>
      simp only [execute, Effect.next, faults, Machine.spread, Machine.curses_pushAll]
      exact machine.curses_top 1
  | jumpUnlessPositive => exact machine.curses_top span.toNat
  | jump => rfl
  | putNumber => exact machine.curses_pop span.toNat
  | putPoint => exact machine.curses_putPoint span.toNat console
  | getNumber => exact machine.curses_getNumber range span.toNat console
  | getPoint => exact machine.curses_getPoint range span.toNat console
  | halt => rfl

end Instruction

namespace Run

theorem curses_steps (run : Run) (range : Range) (program : Program) (count : Nat) :
    (run.steps range program count).machine.curses =
      run.machine.curses + ((run.history range program count).map fun entry =>
        entry.2.faults range entry.1.machine entry.1.console).sum := by
  induction count with
  | zero => rfl
  | succ count ih =>
      rw [steps_succ, history_succ, List.map_append, List.sum_append, ← Nat.add_assoc, ← ih]
      cases next : (run.steps range program count).next? program with
      | none =>
          rw [machine_step_of_none next]
          rfl
      | some instruction =>
          rw [machine_step_of_some next, Instruction.curses_execute]
          simp

theorem curses_steps_mono (run : Run) (range : Range) (program : Program) {earlier later : Nat}
    (not_after : earlier ≤ later) :
    (run.steps range program earlier).machine.curses ≤
      (run.steps range program later).machine.curses := by
  rcases Nat.exists_eq_add_of_le not_after with ⟨extra, rfl⟩
  induction extra with
  | zero => exact Nat.le_refl _
  | succ extra ih =>
      have before := ih (Nat.le_add_right _ _)
      have shorter := run.curses_steps range program (earlier + extra)
      have longer := run.curses_steps range program (earlier + extra + 1)
      rw [history_succ, List.map_append, List.sum_append] at longer
      rw [← Nat.add_assoc]
      omega

/--
The curses of a run from a fresh machine are the faults of the instructions that it has
executed, each counted in the state in front of it. They never become fewer, and a step that
executes nothing, at the end of the program or after the end of the run, adds none.
-/
theorem curses_eq_sum_faults (range : Range) (program : Program) (input : Bytes) (traced : Bool)
    (count : Nat) :
    let run := (start input traced).steps range program
    let history := (start input traced).history range program count
    (run count).machine.curses = (history.map fun (before, instruction) =>
        instruction.faults range before.machine before.console).sum ∧
      (∀ earlier ≤ count, (run earlier).machine.curses ≤ (run count).machine.curses) ∧
      ((run count).next? program = none →
        (run (count + 1)).machine.curses = (run count).machine.curses) := by
  intro run history
  have fresh : (start input traced).machine.curses = 0 := rfl
  refine ⟨?_, ?_, ?_⟩
  · have counted := (start input traced).curses_steps range program count
    rw [fresh, Nat.zero_add] at counted
    exact counted
  · intro earlier not_after
    exact (start input traced).curses_steps_mono range program not_after
  · intro no_next
    have stepped : run (count + 1) = ((run count).step range program).2 :=
      steps_succ _ range program count
    rw [stepped, machine_step_of_none no_next]

/-- A chain over an empty stack ends in a division by zero, with two faults of its own. -/
theorem curses_eq_sum_faults_division :
    let program : Program :=
      ⟨[⟨.putNumber, 1, 0, 0⟩, ⟨.push, 2, 3, 1⟩, ⟨.combine .div, 3, 0, 2⟩, ⟨.dequeue, 1, 0, 3⟩,
        ⟨.jumpUnlessPositive, 1, 6, 4⟩, ⟨.putNumber, 5, 0, 5⟩], []⟩
    let run := (start [] false).steps .unbounded program
    (((start [] false).history .unbounded program 5).map fun (before, instruction) =>
        instruction.faults .unbounded before.machine before.console) = [1, 0, 2, 1, 0] ∧
      (run 5).machine.curses = 4 ∧ (run 2).machine.curses ≤ (run 5).machine.curses ∧
      (run 5).next? program = none ∧ (run 6).machine.curses = (run 5).machine.curses := by
  intro program run
  have faults : (((start [] false).history .unbounded program 5).map
      fun (before, instruction) =>
        instruction.faults .unbounded before.machine before.console) = [1, 0, 2, 1, 0] := by
    decide +kernel
  have no_next : (run 5).next? program = none := by
    decide +kernel
  -- With its two facts known, the program need not be run again to compare the statements.
  clear_value program
  rcases curses_eq_sum_faults .unbounded program [] false 5 with ⟨counted, grown, at_end⟩
  rw [faults] at counted
  exact ⟨faults, counted, grown 2 (by decide), no_next, at_end no_next⟩

end Run

end SpanMachine
