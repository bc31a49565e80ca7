import SpanMachine.Proofs.Execution.Faults

/-!
# Chains of operators in closed form

A chain of operators works its way from stack 1 to the stack of its span. Each of its steps
pops two values and pushes their combination, which the next step pops again. Of all this
nothing is left in the end but that every stack on the way has lost its top, if it had one,
and that the last stack has the accumulated value on top.

The invariant says where a chain stands after some steps: the stacks behind it have lost
their tops, the stacks in front of it are untouched, and the stack that it has reached reads
as the accumulated value above what was below its old top. At the beginning this holds of
stack 1 as it is, also if that is empty. From the first step on the accumulated value lies
on the stack itself, so that taking it again raises no curse.
-/

namespace SpanMachine

namespace Fraction

/--
The value that a chain has accumulated when it has come to a stack: the top of stack 1,
combined in turn with the tops of the stacks from 2 on. An answer that is cursed counts as
zero.
-/
def accumulated (range : Range) (operator : Operator) (tops : Nat → Fraction) : Nat → Fraction
  | 0 => zero
  | 1 => tops 1
  | index + 2 =>
    (combine range operator (accumulated range operator tops (index + 1))
      (tops (index + 2))).toOption.getD zero

/-- What stands in for the value of a cursed answer is the zero that it carries. -/
theorem toOption_combine_getD (range : Range) (operator : Operator) (left right : Fraction) :
    (combine range operator left right).toOption.getD zero =
      (combine range operator left right).value := by
  simp only [combine, reduce]
  split
  · rfl
  · split
    · rfl
    · rfl

theorem accumulated_succ (range : Range) (operator : Operator) (tops : Nat → Fraction)
    {index : Nat} (index_ne_zero : index ≠ 0) :
    accumulated range operator tops (index + 1) =
      (combine range operator (accumulated range operator tops index)
        (tops (index + 1))).value := by
  cases index with
  | zero => exact absurd rfl index_ne_zero
  | succ index =>
      rw [accumulated]
      exact toOption_combine_getD range operator _ _

/-- The answers of a chain, told by the value accumulated in front of each of them. -/
theorem chain_accumulated (range : Range) (operator : Operator) (tops : Nat → Fraction)
    (index count : Nat) :
    chain range operator (accumulated range operator tops (index + 1))
        ((List.range' (index + 2) count).map tops) =
      (List.range' (index + 1) count).map fun each =>
        combine range operator (accumulated range operator tops each) (tops (each + 1)) := by
  induction count generalizing index with
  | zero => rfl
  | succ count ih =>
      simp only [List.range'_succ, List.map_cons, chain]
      rw [← accumulated_succ range operator tops (Nat.succ_ne_zero index), ih]

end Fraction

namespace Stacks

theorem content_of_get?_eq {store other : Stacks} {index : Nat}
    (same : store.get? index = other.get? index) : store.content index = other.content index := by
  rw [content, same, content]

theorem topOrZero_of_get?_eq {store other : Stacks} {index : Nat}
    (same : store.get? index = other.get? index) :
    store.topOrZero index = other.topOrZero index := by
  simp only [topOrZero, peek?, content_of_get?_eq same]

theorem topOrZero_of_get?_cons {store : Stacks} {index : Nat} (index_ne_zero : index ≠ 0)
    {value : Fraction} {below : List Fraction} (found : store.get? index = some (value :: below)) :
    store.topOrZero index = value := by
  simp [topOrZero, peek?, index_ne_zero, content, found]

theorem isNone_peek?_of_ne_zero {index : Nat} (index_ne_zero : index ≠ 0) (store : Stacks) :
    (store.peek? index).isNone = (store.content index).isEmpty := by
  rw [peek?, if_neg index_ne_zero]
  cases store.content index with
  | nil => rfl
  | cons value below => rfl

/-- A chain that has begun on the one store has come to a stack in the other. -/
structure Reached (range : Range) (operator : Operator) (before : Stacks) (reached : Nat)
    (after : Stacks) : Prop where
  passed : ∀ index, 1 ≤ index → index < reached →
    after.get? index = some (before.content index).tail
  top : after.topOrZero reached = Fraction.accumulated range operator before.topOrZero reached
  below : (after.content reached).tail = (before.content reached).tail
  others : ∀ index, index = 0 ∨ reached < index → after.get? index = before.get? index

theorem reached_one (range : Range) (operator : Operator) (before : Stacks) :
    Reached range operator before 1 before := by
  refine ⟨?_, rfl, rfl, fun _ _ => rfl⟩
  intro index positive behind
  omega

end Stacks

namespace Machine

theorem get?_combineAt_self (range : Range) (operator : Operator) (machine : Machine)
    {index : Nat} (index_ne_zero : index ≠ 0) :
    (combineAt range operator machine index).store.get? index =
      some (machine.store.content index).tail := by
  rw [combineAt_eq]
  simp only
  rw [Stacks.get?_push_of_ne (by omega), Stacks.get?_pop_of_ne (by omega),
    Stacks.get?_pop_self index_ne_zero]

theorem get?_combineAt_succ (range : Range) (operator : Operator) (machine : Machine)
    (index : Nat) :
    (combineAt range operator machine index).store.get? (index + 1) =
      some ((Fraction.combine range operator (machine.store.topOrZero index)
        (machine.store.topOrZero (index + 1))).value ::
          (machine.store.content (index + 1)).tail) := by
  have right_kept : (machine.store.pop index).2.get? (index + 1) =
      machine.store.get? (index + 1) :=
    Stacks.get?_pop_of_ne (by omega) _
  have right_taken : ((machine.store.pop index).2.pop (index + 1)).1.value =
      machine.store.topOrZero (index + 1) := by
    rw [Stacks.pop_eq, Fraction.value_orCurse]
    exact Stacks.topOrZero_of_get?_eq right_kept
  have left_taken : (machine.store.pop index).1.value = machine.store.topOrZero index := by
    rw [Stacks.pop_eq, Fraction.value_orCurse]
    rfl
  have right_left : ((machine.store.pop index).2.pop (index + 1)).2.content (index + 1) =
      (machine.store.content (index + 1)).tail := by
    rw [Stacks.content, Stacks.get?_pop_self (by omega), Option.getD_some,
      Stacks.content_of_get?_eq right_kept]
  rw [combineAt_eq]
  simp only
  rw [Stacks.get?_push_self (by omega), right_left, left_taken, right_taken]

theorem get?_combineAt_of_ne (range : Range) (operator : Operator) (machine : Machine)
    {index other : Nat} (not_left : other ≠ index) (not_right : other ≠ index + 1) :
    (combineAt range operator machine index).store.get? other = machine.store.get? other := by
  rw [combineAt_eq]
  simp only
  rw [Stacks.get?_push_of_ne not_right, Stacks.get?_pop_of_ne not_right,
    Stacks.get?_pop_of_ne not_left]

end Machine

namespace Stacks.Reached

variable {range : Range} {operator : Operator} {before : Stacks} {reached : Nat}
  {machine : Machine}

theorem get?_combineAt_succ (standing : Reached range operator before reached machine.store)
    (reached_ne_zero : reached ≠ 0) :
    (Machine.combineAt range operator machine reached).store.get? (reached + 1) =
      some (Fraction.accumulated range operator before.topOrZero (reached + 1) ::
        (before.content (reached + 1)).tail) := by
  have ahead : machine.store.get? (reached + 1) = before.get? (reached + 1) :=
    standing.others _ (Or.inr (Nat.lt_succ_self reached))
  rw [Machine.get?_combineAt_succ, standing.top, topOrZero_of_get?_eq ahead,
    content_of_get?_eq ahead,
    Fraction.accumulated_succ range operator before.topOrZero reached_ne_zero]

/-- One operator moves a chain on by one stack. -/
theorem combineAt (standing : Reached range operator before reached machine.store)
    (reached_ne_zero : reached ≠ 0) :
    Reached range operator before (reached + 1)
      (Machine.combineAt range operator machine reached).store := by
  have result := standing.get?_combineAt_succ reached_ne_zero
  constructor
  · intro index positive behind
    by_cases here : index = reached
    · rw [here, Machine.get?_combineAt_self range operator machine reached_ne_zero,
        standing.below]
    · rw [Machine.get?_combineAt_of_ne range operator machine here (by omega)]
      exact standing.passed index positive (by omega)
  · exact topOrZero_of_get?_cons (Nat.succ_ne_zero reached) result
  · rw [content, result]
    rfl
  · intro index outside
    rw [Machine.get?_combineAt_of_ne range operator machine (by omega) (by omega)]
    exact standing.others index (by omega)

end Stacks.Reached

namespace Machine

theorem reached_foldl_combineAt (range : Range) (operator : Operator) (machine : Machine)
    (count : Nat) :
    Stacks.Reached range operator machine.store (count + 1)
      ((List.range' 1 count).foldl (combineAt range operator) machine).store := by
  induction count with
  | zero => exact Stacks.reached_one range operator machine.store
  | succ count ih =>
      rw [List.range'_1_concat, List.foldl_append, Nat.add_comm 1 count]
      exact ih.combineAt (Nat.succ_ne_zero count)

theorem queue_combine (machine : Machine) (range : Range) (operator : Operator) (span : Nat) :
    (machine.combine range operator span).queue = machine.queue := by
  rw [combine]
  generalize List.range' 1 (span - 1) = indexes
  induction indexes generalizing machine with
  | nil => rfl
  | cons index rest ih => exact ih (combineAt range operator machine index)

/-- The accumulated value ends up on the last stack. -/
theorem get?_combine_span (machine : Machine) (range : Range) (operator : Operator) {span : Nat}
    (several : 2 ≤ span) :
    (machine.combine range operator span).store.get? span =
      some (Fraction.accumulated range operator machine.store.topOrZero span ::
        (machine.store.content span).tail) := by
  rcases Nat.exists_eq_add_of_le' several with ⟨count, rfl⟩
  have standing := machine.reached_foldl_combineAt range operator count
  rw [combine, Nat.add_sub_assoc (by decide), List.range'_1_concat, List.foldl_append,
    Nat.add_comm 1 count]
  exact standing.get?_combineAt_succ (Nat.succ_ne_zero count)

theorem reached_combine (machine : Machine) (range : Range) (operator : Operator) {span : Nat}
    (span_ne_zero : span ≠ 0) :
    Stacks.Reached range operator machine.store span
      (machine.combine range operator span).store := by
  have standing := machine.reached_foldl_combineAt range operator (span - 1)
  rw [Nat.sub_add_cancel (Nat.one_le_iff_ne_zero.mpr span_ne_zero)] at standing
  exact standing

theorem combine_of_lt_two (machine : Machine) (range : Range) (operator : Operator) {span : Nat}
    (few : span < 2) : machine.combine range operator span = machine := by
  have no_pairs : span - 1 = 0 := by omega
  rw [combine, no_pairs]
  rfl

/-- The curses of a chain, told by the accumulated values. -/
theorem curses_combine_accumulated (machine : Machine) (range : Range) (operator : Operator)
    {span : Nat} (several : 2 ≤ span) :
    let accumulated := Fraction.accumulated range operator machine.store.topOrZero
    (machine.combine range operator span).curses = machine.curses +
      (List.range' 1 span).countP (fun index => (machine.store.content index).isEmpty) +
      (List.range' 1 (span - 1)).countP (fun index =>
        (Fraction.combine range operator (accumulated index)
          (machine.store.topOrZero (index + 1))).cursed) := by
  intro accumulated
  have missing : (List.range' 1 span).countP
      (fun index => (machine.store.peek? index).isNone) =
        (List.range' 1 span).countP (fun index => (machine.store.content index).isEmpty) := by
    apply List.countP_congr
    intro index index_mem
    rw [Stacks.isNone_peek?_of_ne_zero]
    have := (List.mem_range'_1.mp index_mem).1
    omega
  have answers : Fraction.chain range operator (machine.store.topOrZero 1)
      ((List.range' 2 (span - 1)).map machine.store.topOrZero) =
        (List.range' 1 (span - 1)).map fun index =>
          Fraction.combine range operator (accumulated index)
            (machine.store.topOrZero (index + 1)) :=
    Fraction.chain_accumulated range operator machine.store.topOrZero 0 (span - 1)
  rw [curses_combine machine range operator several, missing, answers, List.countP_map,
    ← Nat.add_assoc]
  rfl

end Machine

namespace Instruction

/--
A chain of operators in closed form. With a span of at least two, each stack below the span
loses its top, if it has one, and exists from then on; the stack of the span has its top
replaced by the accumulated value; and everything else is as it was. A curse is raised for
each empty stack and for each combination without a result. With a smaller span nothing
happens at all.
-/
theorem combine_accumulates (instruction : Instruction) {operator : Operator}
    (combines : instruction.opcode = .combine operator) (range : Range) (machine : Machine)
    (console : Console) :
    let span := instruction.span.toNat
    let store := machine.store
    let accumulated := Fraction.accumulated range operator store.topOrZero
    let effect := instruction.execute range machine console
    let after := effect.machine.store
    (2 ≤ span →
      (∀ index, 1 ≤ index → index < span → after.get? index = some (store.content index).tail) ∧
      after.get? span = some (accumulated span :: (store.content span).tail) ∧
      (∀ index, index = 0 ∨ span < index → after.get? index = store.get? index) ∧
      effect.machine.queue = machine.queue ∧
      effect.console = console ∧
      effect.machine.curses = machine.curses +
        (List.range' 1 span).countP (fun index => (store.content index).isEmpty) +
        (List.range' 1 (span - 1)).countP (fun index =>
          (Fraction.combine range operator (accumulated index)
            (store.topOrZero (index + 1))).cursed) ∧
      effect.move = .advance) ∧
    (span < 2 → effect = ⟨.advance, machine, console⟩) := by
  intro span store accumulated effect after
  have executed : effect = .next (machine.combine range operator span, console) := by
    simp only [effect, execute, combines]
    rfl
  have after_eq : after = (machine.combine range operator span).store := by
    simp only [after, executed, Effect.next]
  constructor
  · intro several
    have span_ne_zero : span ≠ 0 := by omega
    have standing := machine.reached_combine range operator span_ne_zero
    rw [after_eq, executed]
    refine ⟨standing.passed, ?_, standing.others, ?_, rfl, ?_, rfl⟩
    · exact machine.get?_combine_span range operator several
    · exact machine.queue_combine range operator span
    · exact machine.curses_combine_accumulated range operator several
  · intro few
    rw [executed, machine.combine_of_lt_two range operator few]
    rfl

/-- A difference that overflows, an absent stack, and a last difference that counts from zero. -/
theorem combine_accumulates_past_overflow :
    let machine : Machine :=
      { store.entries := [(1, [⟨0x7FFFFFFFFFFFFFFF, 1⟩]), (2, [⟨-1, 1⟩]),
          (4, [⟨5, 1⟩, ⟨8, 1⟩]), (9, [])] }
    let effect := (Instruction.mk (.combine .sub) 4 0 0).execute .bounded machine ⟨[], []⟩
    let after := effect.machine.store
    after.get? 1 = some [] ∧ after.get? 3 = some [] ∧ after.get? 4 = some [⟨-5, 1⟩, ⟨8, 1⟩] ∧
      after.get? 9 = some [] ∧ effect.machine.curses = 2 := by
  intro machine effect after
  rcases (combine_accumulates (Instruction.mk (.combine .sub) 4 0 0) rfl .bounded machine
    ⟨[], []⟩).1 (by decide) with ⟨passed, result, others, -, -, curses, -⟩
  refine ⟨passed 1 (by decide) (by decide), passed 3 (by decide) (by decide), ?_,
    others 9 (by decide), ?_⟩
  · have accumulated : Fraction.accumulated .bounded .sub machine.store.topOrZero 4 = ⟨-5, 1⟩ := by
      decide +kernel
    rw [← accumulated]
    exact result
  · apply curses.trans
    decide +kernel

end Instruction

end SpanMachine
