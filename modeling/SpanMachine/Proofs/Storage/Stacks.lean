import Mathlib.Data.List.Sort
import SpanMachine.Storage.Stacks

/-!
# Looking at and changing stacks

Since the stacks are kept in order, a store is known from what its stacks answer. What
popping a stack and looking at it answer is decided by the value on its top, and this
value is all that most instructions see of a stack. Pushing and popping do nothing at all
or give one stack other than stack zero a new content. So whatever survives such a change
survives every operation.
-/

namespace SpanMachine

namespace Answer

theorem curses_eq {α : Type} (answer : Answer α) :
    answer.curses = if answer.cursed then 1 else 0 := by
  rcases answer with ⟨value, cursed⟩
  cases cursed <;> rfl

end Answer

namespace Fraction

/-- The answer to a question for a value that may be missing. -/
def orCurse : Option Fraction → Answer Fraction
  | some value => ⟨value, false⟩
  | none => curse

@[simp]
theorem value_orCurse (value? : Option Fraction) :
    (orCurse value?).value = value?.getD zero := by
  cases value? <;> rfl

@[simp]
theorem curses_orCurse (value? : Option Fraction) :
    (orCurse value?).curses = if value?.isNone then 1 else 0 := by
  cases value? <;> rfl

end Fraction

namespace Stacks

theorem mem_entries_of_get? {store : Stacks} {index : Nat} {values : List Fraction}
    (found : store.get? index = some values) : (index, values) ∈ store.entries := by
  rcases List.lookup_eq_some_iff.mp found with ⟨front, back, entries_eq, -⟩
  rw [entries_eq]
  exact List.mem_append_right front List.mem_cons_self

/-- The entries are what the stacks answer. -/
theorem mem_entries_iff {store : Stacks} {index : Nat} {values : List Fraction} :
    (index, values) ∈ store.entries ↔ store.get? index = some values := by
  refine ⟨?_, mem_entries_of_get?⟩
  intro listed
  rcases List.append_of_mem listed with ⟨front, back, entries_eq⟩
  refine List.lookup_eq_some_iff.mpr ⟨front, back, entries_eq, ?_⟩
  have increasing := store.increasing
  rw [entries_eq, List.pairwise_append] at increasing
  intro entry entry_mem
  have below : entry.1 < index := increasing.2.2 entry entry_mem _ List.mem_cons_self
  simp only [bne_iff_ne, ne_eq]
  omega

theorem eq_of_entries {first second : Stacks} (same : first.entries = second.entries) :
    first = second := by
  rcases first with ⟨entries, increasing⟩
  cases same
  rfl

/-- Stores that answer alike are the same, as the order of their stacks is given. -/
theorem eq_iff_get? {first second : Stacks} :
    first = second ↔ ∀ index, first.get? index = second.get? index := by
  constructor
  · rintro rfl index
    rfl
  · intro same
    let before (left right : Nat × List Fraction) : Prop := left.1 < right.1
    have irreflexive : Std.Irrefl before := ⟨fun entry => Nat.lt_irrefl entry.1⟩
    have antisymmetric : Std.Antisymm before :=
      ⟨fun left right one other => absurd other (Nat.lt_asymm one)⟩
    apply eq_of_entries
    apply List.Pairwise.eq_of_mem_iff first.increasing second.increasing
    rintro ⟨index, values⟩
    rw [mem_entries_iff, mem_entries_iff, same]

theorem set_set_self (store : Stacks) (index : Nat) (first second : List Fraction) :
    (store.set index first).set index second = store.set index second := by
  apply eq_iff_get?.mpr
  intro other
  by_cases here : other = index
  · rw [here, get?_set_self, get?_set_self]
  · rw [get?_set_of_ne here, get?_set_of_ne here, get?_set_of_ne here]

/-- A stack that is given the content that it has stays as it is. -/
theorem set_of_get? {store : Stacks} {index : Nat} {values : List Fraction}
    (found : store.get? index = some values) : store.set index values = store := by
  apply eq_iff_get?.mpr
  intro other
  by_cases here : other = index
  · rw [here, get?_set_self, found]
  · exact get?_set_of_ne here store values

@[simp]
theorem content_set_self (store : Stacks) (index : Nat) (values : List Fraction) :
    (store.set index values).content index = values := by
  simp [content]

theorem content_set_of_ne {index other : Nat} (other_ne_index : other ≠ index) (store : Stacks)
    (values : List Fraction) : (store.set index values).content other = store.content other := by
  simp only [content, get?_set_of_ne other_ne_index]

/-- Creating a stack, if it is absent, changes no content. -/
theorem content_set_content (store : Stacks) (index other : Nat) :
    (store.set index (store.content index)).content other = store.content other := by
  by_cases same : other = index
  · rw [same, content_set_self]
  · exact content_set_of_ne same store _

theorem pop_push_self {index : Nat} (index_ne_zero : index ≠ 0) (store : Stacks)
    (value : Fraction) :
    (store.push index value).pop index =
      (⟨value, false⟩, store.set index (store.content index)) := by
  simp only [push, pop, index_ne_zero, if_false, content_set_self, set_set_self]

/-- The value on top of a stack. Stack zero, absent stacks and empty ones have none. -/
def peek? (store : Stacks) (index : Nat) : Option Fraction :=
  if index = 0 then none else (store.content index).head?

/-- The value that a stack is read as: its top, or zero if there is none. -/
def topOrZero (store : Stacks) (index : Nat) : Fraction :=
  (store.peek? index).getD .zero

theorem pop_eq (store : Stacks) (index : Nat) :
    store.pop index =
      (Fraction.orCurse (store.peek? index),
        if index = 0 then store else store.set index (store.content index).tail) := by
  simp only [pop, peek?]
  split
  · rfl
  · cases store.content index with
    | nil => rfl
    | cons value rest => rfl

theorem top_eq (store : Stacks) (index : Nat) :
    store.top index =
      (Fraction.orCurse (store.peek? index),
        if index ≠ 0 ∧ store.content index = [] then store.set index [] else store) := by
  simp only [top, peek?]
  split
  · rename_i index_eq_zero
    simp [index_eq_zero, Fraction.orCurse]
  · rename_i index_ne_zero
    cases store.content index with
    | nil => simp [index_ne_zero, Fraction.orCurse]
    | cons value rest => simp [Fraction.orCurse]

theorem peek?_set_of_ne {index other : Nat} (other_ne_index : other ≠ index) (store : Stacks)
    (values : List Fraction) : (store.set index values).peek? other = store.peek? other := by
  simp only [peek?, content_set_of_ne other_ne_index]

theorem peek?_pop_of_ne {index other : Nat} (other_ne_index : other ≠ index) (store : Stacks) :
    (store.pop index).2.peek? other = store.peek? other := by
  rw [pop_eq]
  simp only
  split
  · rfl
  · exact peek?_set_of_ne other_ne_index store _

theorem peek?_push_of_ne {index other : Nat} (other_ne_index : other ≠ index) (store : Stacks)
    (value : Fraction) : (store.push index value).peek? other = store.peek? other := by
  unfold push
  split
  · rfl
  · exact peek?_set_of_ne other_ne_index store _

theorem peek?_push_self {index : Nat} (index_ne_zero : index ≠ 0) (store : Stacks)
    (value : Fraction) : (store.push index value).peek? index = some value := by
  simp [peek?, push, index_ne_zero]

theorem get?_pop_self {index : Nat} (index_ne_zero : index ≠ 0) (store : Stacks) :
    (store.pop index).2.get? index = some (store.content index).tail := by
  rw [pop_eq]
  simp only [index_ne_zero, if_false, get?_set_self]

theorem get?_pop_of_ne {index other : Nat} (other_ne_index : other ≠ index) (store : Stacks) :
    (store.pop index).2.get? other = store.get? other := by
  rw [pop_eq]
  simp only
  split
  · rfl
  · exact get?_set_of_ne other_ne_index store _

theorem get?_push_self {index : Nat} (index_ne_zero : index ≠ 0) (store : Stacks)
    (value : Fraction) :
    (store.push index value).get? index = some (value :: store.content index) := by
  simp only [push, index_ne_zero, if_false, get?_set_self]

theorem get?_push_of_ne {index other : Nat} (other_ne_index : other ≠ index) (store : Stacks)
    (value : Fraction) : (store.push index value).get? other = store.get? other := by
  unfold push
  split
  · rfl
  · exact get?_set_of_ne other_ne_index store _

theorem get?_top_self {index : Nat} (index_ne_zero : index ≠ 0) (store : Stacks) :
    (store.top index).2.get? index = some (store.content index) := by
  rw [top_eq]
  simp only
  split
  · rename_i created
    rw [get?_set_self, created.2]
  · rename_i kept
    have not_empty : store.content index ≠ [] := fun empty => kept ⟨index_ne_zero, empty⟩
    cases found : store.get? index with
    | none => exact absurd (by rw [content, found]; rfl) not_empty
    | some values => rw [content, found, Option.getD_some]

theorem get?_top_of_ne {index other : Nat} (other_ne_index : other ≠ index) (store : Stacks) :
    (store.top index).2.get? other = store.get? other := by
  rw [top_eq]
  simp only
  split
  · exact get?_set_of_ne other_ne_index store _
  · rfl

/-- A property of stores that lasts when a stack other than stack zero gets a new content. -/
def Lasting (property : Stacks → Prop) : Prop :=
  ∀ (store : Stacks) (index : Nat) (values : List Fraction), index ≠ 0 →
    property store → property (store.set index values)

namespace Lasting

variable {property : Stacks → Prop}

theorem push (lasting : Lasting property) {store : Stacks} (holds : property store) (index : Nat)
    (value : Fraction) : property (store.push index value) := by
  unfold Stacks.push
  split
  · exact holds
  · rename_i index_ne_zero
    exact lasting store index _ index_ne_zero holds

theorem pop (lasting : Lasting property) {store : Stacks} (holds : property store)
    (index : Nat) : property (store.pop index).2 := by
  rw [pop_eq]
  simp only
  split
  · exact holds
  · rename_i index_ne_zero
    exact lasting store index _ index_ne_zero holds

theorem top (lasting : Lasting property) {store : Stacks} (holds : property store)
    (index : Nat) : property (store.top index).2 := by
  rw [top_eq]
  simp only
  split
  · rename_i created
    exact lasting store index _ created.1 holds
  · exact holds

end Lasting

end Stacks

end SpanMachine
