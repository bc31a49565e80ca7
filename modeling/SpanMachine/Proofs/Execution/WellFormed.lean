import SpanMachine.Proofs.Execution.Steps
import SpanMachine.Proofs.Number.Storable

/-!
# Well-formed machines

Values get onto a machine by four doors only: as the zero that stands in for a missing value,
as a magnitude, as a numeral that was read, and as the result of an operator. Everything else
moves or copies values that are there already. So a property of fractions that holds behind
these doors holds of every value on every stack and in the queue, after any number of steps.
Being storable is such a property.

Stacks are only ever set, never removed, and stack zero is not among those that are set.
-/

namespace SpanMachine

namespace Fraction

/-- A property of all values that can come onto a machine. -/
structure Closed (range : Range) (property : Fraction → Prop) : Prop where
  zero : property zero
  magnitude : ∀ magnitude, property (ofMagnitude range magnitude).value
  numeral : ∀ {text value}, Numeral.read? range text = some value → property value
  combine : ∀ {left right} (operator : Operator), property left → property right →
    property (combine range operator left right).value

theorem closed_storable (range : Range) : Closed range (Storable range) where
  zero := storable_zero range
  magnitude := storable_ofMagnitude range
  numeral := storable_of_read?
  combine := fun operator left_storable right_storable =>
    storable_combine left_storable right_storable operator

end Fraction

namespace Stacks

/-- All values on all stacks have the property. -/
def Every (property : Fraction → Prop) (store : Stacks) : Prop :=
  ∀ entry ∈ store.entries, ∀ value ∈ entry.2, property value

namespace Every

variable {property : Fraction → Prop} {store : Stacks}

theorem content (every : store.Every property) (index : Nat) :
    ∀ value ∈ store.content index, property value := by
  intro value valueMem
  cases found : store.get? index with
  | none =>
      rw [Stacks.content, found] at valueMem
      cases valueMem
  | some values =>
      rw [Stacks.content, found] at valueMem
      exact every (index, values) (mem_entries_of_get? found) value valueMem

theorem set (every : store.Every property) (index : Nat) {values : List Fraction}
    (values_hold : ∀ value ∈ values, property value) : (store.set index values).Every property := by
  intro entry entryMem
  rcases mem_place entryMem with rfl | old
  · exact values_hold
  · exact every entry old

theorem push (every : store.Every property) (index : Nat) {value : Fraction}
    (holds : property value) : (store.push index value).Every property := by
  unfold Stacks.push
  split
  · exact every
  · apply every.set
    intro other otherMem
    rcases List.mem_cons.mp otherMem with rfl | below
    · exact holds
    · exact every.content index other below

theorem orCurse_peek? (every : store.Every property) (zero_holds : property .zero)
    (index : Nat) : property (Fraction.orCurse (store.peek? index)).value := by
  rw [Fraction.value_orCurse]
  cases found : store.peek? index with
  | none => exact zero_holds
  | some value =>
      rw [peek?, Option.ite_none_left_eq_some] at found
      exact every.content index value (List.mem_of_head? found.2)

theorem pop (every : store.Every property) (zero_holds : property .zero) (index : Nat) :
    property (store.pop index).1.value ∧ (store.pop index).2.Every property := by
  rw [pop_eq]
  refine ⟨every.orCurse_peek? zero_holds index, ?_⟩
  dsimp only
  split
  · exact every
  · apply every.set
    intro value valueMem
    exact every.content index value (List.mem_of_mem_tail valueMem)

theorem top (every : store.Every property) (zero_holds : property .zero) (index : Nat) :
    property (store.top index).1.value ∧ (store.top index).2.Every property := by
  rw [top_eq]
  refine ⟨every.orCurse_peek? zero_holds index, ?_⟩
  dsimp only
  split
  · apply every.set
    intro value valueMem
    cases valueMem
  · exact every

end Every

/-- There is no stack zero. -/
def NoZero (store : Stacks) : Prop :=
  ∀ entry ∈ store.entries, entry.1 ≠ 0

theorem NoZero.get?_zero {store : Stacks} (no_zero : store.NoZero) : store.get? 0 = none := by
  cases found : store.get? 0 with
  | none => rfl
  | some values => exact absurd rfl (no_zero (0, values) (mem_entries_of_get? found))

theorem lasting_noZero : Lasting NoZero := by
  intro store index values index_ne_zero no_zero entry entryMem
  rcases mem_place entryMem with rfl | old
  · exact index_ne_zero
  · exact no_zero entry old

theorem lasting_isSome_get? (index : Nat) : Lasting fun store => (store.get? index).isSome := by
  intro store other values _ exists_before
  by_cases same : index = other
  · rw [same, get?_set_self]
    rfl
  · rw [get?_set_of_ne same]
    exact exists_before

end Stacks

namespace Machine

/-- All values on the stacks and in the queue have the property. -/
structure Every (property : Fraction → Prop) (machine : Machine) : Prop where
  store : machine.store.Every property
  queue : ∀ value ∈ machine.queue.items, property value

namespace Every

variable {range : Range} {property : Fraction → Prop} {machine : Machine}

theorem imp (every : machine.Every property) {weaker : Fraction → Prop}
    (implies : ∀ value, property value → weaker value) : machine.Every weaker := by
  constructor
  · intro entry entryMem value valueMem
    exact implies value (every.store entry entryMem value valueMem)
  · intro value valueMem
    exact implies value (every.queue value valueMem)

theorem absorb (every : machine.Every property) {α : Type} (answer : Answer α) :
    (machine.absorb answer).Every property :=
  ⟨every.store, every.queue⟩

theorem curse (every : machine.Every property) : machine.curse.Every property :=
  ⟨every.store, every.queue⟩

theorem push (every : machine.Every property) (index : Nat) {value : Fraction}
    (holds : property value) : (machine.push index value).Every property :=
  ⟨every.store.push index holds, every.queue⟩

theorem pushAll (every : machine.Every property) (indexes : List Nat) {value : Fraction}
    (holds : property value) : (machine.pushAll indexes value).Every property := by
  induction indexes generalizing machine with
  | nil => exact every
  | cons index rest ih => exact ih (every.push index holds)

theorem pop (every : machine.Every property) (zero_holds : property .zero) (index : Nat) :
    property (machine.pop index).1.value ∧ (machine.pop index).2.Every property := by
  rcases every.store.pop zero_holds index with ⟨value_holds, store_every⟩
  exact ⟨value_holds, store_every, every.queue⟩

theorem top (every : machine.Every property) (zero_holds : property .zero) (index : Nat) :
    property (machine.top index).1.value ∧ (machine.top index).2.Every property := by
  rcases every.store.top zero_holds index with ⟨value_holds, store_every⟩
  exact ⟨value_holds, store_every, every.queue⟩

theorem topSign (every : machine.Every property) (zero_holds : property .zero) (index : Nat) :
    (machine.topSign index).2.Every property :=
  ⟨(every.store.top zero_holds index).2, every.queue⟩

theorem enqueue (every : machine.Every property) {value : Fraction} (holds : property value) :
    (machine.enqueue value).Every property := by
  refine ⟨every.store, ?_⟩
  intro other otherMem
  rcases List.mem_append.mp otherMem with waiting | added
  · exact every.queue other waiting
  · rw [List.mem_singleton] at added
    exact added ▸ holds

theorem dequeue (every : machine.Every property) (zero_holds : property .zero) :
    property machine.dequeue.1.value ∧ machine.dequeue.2.Every property := by
  rcases machine with ⟨store, ⟨items⟩, curses⟩
  cases items with
  | nil => exact ⟨zero_holds, every.store, every.queue⟩
  | cons front rest =>
      refine ⟨every.queue front List.mem_cons_self, every.store, ?_⟩
      intro value valueMem
      exact every.queue value (List.mem_cons_of_mem _ valueMem)

theorem combineAt (every : machine.Every property) (closed : Fraction.Closed range property)
    (operator : Operator) (index : Nat) :
    (machine.combineAt range operator index).Every property := by
  rcases every.pop closed.zero index with ⟨left_holds, left_every⟩
  rcases left_every.pop closed.zero (index + 1) with ⟨right_holds, right_every⟩
  apply Every.push
  · exact right_every.absorb _
  · exact closed.combine operator left_holds right_holds

theorem combine (every : machine.Every property) (closed : Fraction.Closed range property)
    (operator : Operator) (span : Nat) : (machine.combine range operator span).Every property := by
  rw [Machine.combine]
  induction List.range' 1 (span - 1) generalizing machine with
  | nil => exact every
  | cons index rest ih => exact ih (every.combineAt closed operator index)

/-- One instruction: each value that it stores is an old one or comes in by a door. -/
theorem execute (every : machine.Every property) (closed : Fraction.Closed range property)
    (instruction : Instruction) (console : Console) :
    (instruction.execute range machine console).machine.Every property := by
  rcases instruction with ⟨opcode, span, magnitude, origin⟩
  cases opcode with
  | push =>
      simp only [Instruction.execute, Effect.next, Machine.pushMagnitude]
      split
      · exact every
      · exact (every.absorb _).pushAll _ (closed.magnitude magnitude)
  | combine operator => exact every.combine closed operator span.toNat
  | enqueue =>
      rcases every.pop closed.zero span.toNat with ⟨value_holds, popped⟩
      exact popped.enqueue value_holds
  | dequeue =>
      rcases every.dequeue closed.zero with ⟨value_holds, dequeued⟩
      exact dequeued.push span.toNat value_holds
  | spread =>
      rcases every.top closed.zero 1 with ⟨value_holds, looked⟩
      exact looked.pushAll _ value_holds
  | jumpUnlessPositive => exact every.topSign closed.zero span.toNat
  | jump => exact every
  | putNumber => exact (every.pop closed.zero span.toNat).2
  | putPoint =>
      have popped := (every.pop closed.zero span.toNat).2
      simp only [Instruction.execute, Effect.next, Machine.putPoint]
      split
      · exact popped
      · split
        · exact popped
        · exact popped.curse
  | getNumber =>
      simp only [Instruction.execute, Effect.next, Machine.getNumber]
      split
      · rename_i value read
        rcases Option.bind_eq_some_iff.mp read with ⟨word, -, read_word⟩
        exact every.push span.toNat (closed.numeral read_word)
      · exact every.curse.push span.toNat closed.zero
  | getPoint =>
      simp only [Instruction.execute, Effect.next, Machine.getPoint]
      split
      · exact (every.absorb _).push span.toNat (closed.magnitude _)
      · exact every.curse.push span.toNat closed.zero
  | halt => exact every

end Every

/-- A machine as it can be reached: all its values may be stored, and there is no stack zero. -/
structure WellFormed (range : Range) (machine : Machine) : Prop where
  values : machine.Every (Fraction.Storable range)
  no_zero : machine.store.NoZero

theorem wellFormed_start (range : Range) : WellFormed range {} := by
  refine ⟨⟨?_, ?_⟩, ?_⟩
  · intro entry entryMem
    cases entryMem
  · intro value valueMem
    cases valueMem
  · intro entry entryMem
    cases entryMem

theorem WellFormed.execute {range : Range} {machine : Machine}
    (wellFormed : WellFormed range machine) (instruction : Instruction) (console : Console) :
    WellFormed range (instruction.execute range machine console).machine where
  values := wellFormed.values.execute (Fraction.closed_storable range) instruction console
  no_zero := Stacks.lasting_noZero.execute wellFormed.no_zero instruction range console

end Machine

namespace Run

/--
Every machine that a run from a fresh machine reaches is well formed: its values are in lowest
terms within the range, a zero among them is stored as such, and stack zero does not exist. No
stack that exists is missing after the next step.
-/
theorem wellFormed_steps (range : Range) (program : Program) (input : Bytes) (traced : Bool)
    (count : Nat) :
    let run := (start input traced).steps range program
    (run count).machine.WellFormed range ∧
      (run count).machine.Every (fun value => value.num = 0 → value = .zero) ∧
      (run count).machine.store.get? 0 = none ∧
      ∀ index, ((run count).machine.store.get? index).isSome →
        ((run (count + 1)).machine.store.get? index).isSome := by
  intro run
  have wellFormed : (run count).machine.WellFormed range := by
    apply machine_steps_of_execute
    · intro machine instruction console wellFormed
      exact wellFormed.execute instruction console
    · exact Machine.wellFormed_start range
  refine ⟨wellFormed, ?_, wellFormed.no_zero.get?_zero, ?_⟩
  · apply wellFormed.values.imp
    intro value storable num_zero
    exact (Fraction.num_eq_zero_iff storable.normal).mp num_zero
  · intro index exists_before
    have next_run : run (count + 1) = (run count).steps range program 1 :=
      steps_succ _ range program count
    rw [next_run]
    exact (Stacks.lasting_isSome_get? index).steps exists_before range program 1

/-- A chain over a zero divisor and an empty stack, which lasts when it is not mentioned again. -/
theorem wellFormed_steps_division :
    let program : Program :=
      ⟨[⟨.push, 2, 5, 0⟩, ⟨.push, 2, 0, 1⟩, ⟨.combine .div, 3, 0, 2⟩, ⟨.dequeue, 0, 0, 3⟩], []⟩
    let run := (start [] false).steps .bounded program
    (run 3).machine.WellFormed .bounded ∧ (run 3).machine.store.get? 0 = none ∧
      ((run 3).machine.store.get? 3).isSome ∧ ((run 4).machine.store.get? 3).isSome := by
  intro program run
  rcases wellFormed_steps .bounded program [] false 3 with ⟨wellFormed, -, no_zero, lasts⟩
  have exists_before : ((run 3).machine.store.get? 3).isSome := by
    decide
  exact ⟨wellFormed, no_zero, exists_before, lasts 3 exists_before⟩

end Run

end SpanMachine
