import Mathlib.Data.List.Sort
import SpanMachine.Execution.Dump
import SpanMachine.Proofs.Execution.WellFormed
import SpanMachine.Proofs.Listing.Words
import SpanMachine.Proofs.Number.Order

/-!
# What a dump tells

A dump falls into lines, and no line holds a line feed of its own. The last two lines are those
of the queue and of the curses, all others those of the stacks. A line begins with a name, which
ends at the first colon, and its values are parted by commas, which are not used in the text of a
fraction. As that text is never empty, one value is told apart from none. So each part of a
machine can be found again in its dump.

A stack that was mentioned has a line even if it is empty, and stacks are kept in the order of
their numbers. So the lines and what the stacks answer are known from each other.
-/

namespace SpanMachine

theorem map_inj_of_mem {α β : Type} {view : α → β} {first second : List α}
    (told_apart : ∀ left ∈ first, ∀ right ∈ second, view left = view right → left = right)
    (same : first.map view = second.map view) : first = second := by
  induction first generalizing second with
  | nil => exact (List.map_eq_nil_iff.mp same.symm).symm
  | cons left first ih =>
      rcases second with _ | ⟨right, second⟩
      · cases same
      · rcases List.cons.inj same with ⟨same_head, same_tail⟩
        have heads := told_apart left List.mem_cons_self right List.mem_cons_self same_head
        have tails : first = second := by
          apply ih _ same_tail
          intro left left_mem right right_mem
          exact told_apart left (List.mem_cons_of_mem _ left_mem) right
            (List.mem_cons_of_mem _ right_mem)
        rw [heads, tails]

namespace Byte

def comma : UInt8 :=
  0x2C

end Byte

namespace Decimal

theorem ofNat_inj {left right : Nat} (same : ofNat left = ofNat right) : left = right := by
  rw [← value_ofNat left, same, value_ofNat]

theorem not_mem_ofNat {mark : UInt8} (not_digit : Byte.isDigit mark = false) (number : Nat) :
    mark ∉ ofNat number :=
  not_mem_of_isNumeral (isNumeral_ofNat number) not_digit

end Decimal

namespace Bytes

theorem cutAt_inj {mark : UInt8} {first second left right : Bytes} (first_free : mark ∉ first)
    (second_free : mark ∉ second) (same : first ++ mark :: left = second ++ mark :: right) :
    first = second ∧ left = right := by
  have cut := congrArg (Bytes.cutAt mark) same
  rw [cutAt_append first_free, cutAt_append second_free] at cut
  exact Prod.mk.inj cut

theorem intercalate_cons (item : Bytes) (rest : List Bytes) :
    (ascii ", ").intercalate (item :: rest) =
      item ++ rest.flatMap fun next => Byte.comma :: Byte.space :: next := by
  induction rest generalizing item with
  | nil => simp
  | cons next rest ih =>
      rw [List.intercalate_cons_cons, ih, List.flatMap_cons, List.append_assoc]
      rfl

/-- Between two commas stands an item behind a space. -/
theorem splitOn_intercalate_cons {item : Bytes} {rest : List Bytes}
    (no_comma : ∀ text ∈ item :: rest, Byte.comma ∉ text) :
    ((ascii ", ").intercalate (item :: rest)).splitOn Byte.comma =
      item :: rest.map (Byte.space :: ·) := by
  rw [intercalate_cons]
  rw [List.forall_mem_cons] at no_comma
  rcases no_comma with ⟨item_free, rest_free⟩
  induction rest generalizing item with
  | nil => simpa using List.splitOn_eq_singleton item_free
  | cons next rest ih =>
      rw [List.forall_mem_cons] at rest_free
      have next_free : Byte.comma ∉ Byte.space :: next := by
        simpa [Byte.comma, Byte.space] using rest_free.1
      rw [List.flatMap_cons, List.cons_append, List.splitOn_append_cons_self_of_not_mem item_free,
        ih next_free rest_free.2]
      rfl

/-- Items that are not empty and hold no comma can be found again. -/
theorem intercalate_inj {first second : List Bytes}
    (first_items : ∀ text ∈ first, text ≠ [] ∧ Byte.comma ∉ text)
    (second_items : ∀ text ∈ second, text ≠ [] ∧ Byte.comma ∉ text)
    (same : (ascii ", ").intercalate first = (ascii ", ").intercalate second) :
    first = second := by
  rcases first with _ | ⟨item, rest⟩ <;> rcases second with _ | ⟨other, others⟩
  · rfl
  · rw [intercalate_cons] at same
    exact absurd (List.append_eq_nil_iff.mp same.symm).1 (second_items other List.mem_cons_self).1
  · rw [intercalate_cons] at same
    exact absurd (List.append_eq_nil_iff.mp same).1 (first_items item List.mem_cons_self).1
  · have pieces := congrArg (List.splitOn Byte.comma) same
    rw [splitOn_intercalate_cons fun text text_mem => (first_items text text_mem).2,
      splitOn_intercalate_cons fun text text_mem => (second_items text text_mem).2] at pieces
    rcases List.cons.inj pieces with ⟨rfl, same_rest⟩
    have spaced_inj : Function.Injective (List.cons Byte.space) := List.cons_injective
    rw [List.map_injective_iff.mpr spaced_inj same_rest]

theorem mem_of_mem_intercalate {items : List Bytes} {byte : UInt8}
    (byte_mem : byte ∈ (ascii ", ").intercalate items) :
    byte = Byte.comma ∨ byte = Byte.space ∨ ∃ text ∈ items, byte ∈ text := by
  rcases items with _ | ⟨item, rest⟩
  · cases byte_mem
  · rw [intercalate_cons, List.mem_append, List.mem_flatMap] at byte_mem
    rcases byte_mem with item_mem | ⟨next, next_mem, next_byte⟩
    · exact Or.inr (Or.inr ⟨item, List.mem_cons_self, item_mem⟩)
    · rcases List.mem_cons.mp next_byte with comma | later
      · exact Or.inl comma
      · rcases List.mem_cons.mp later with space | text_byte
        · exact Or.inr (Or.inl space)
        · exact Or.inr (Or.inr ⟨next, List.mem_cons_of_mem _ next_mem, text_byte⟩)

end Bytes

namespace Stacks

theorem mem_map_fst_entries {store : Stacks} {index : Nat} :
    index ∈ store.entries.map Prod.fst ↔ (store.get? index).isSome := by
  rw [List.mem_map, Option.isSome_iff_exists]
  constructor
  · rintro ⟨⟨_, values⟩, entry_mem, rfl⟩
    exact ⟨values, mem_entries_iff.mp entry_mem⟩
  · rintro ⟨values, found⟩
    exact ⟨(index, values), mem_entries_of_get? found, rfl⟩

end Stacks

namespace Machine

/-- A named list of fractions as a line without its end. -/
def dumpRow (name : Bytes) (values : List Fraction) : Bytes :=
  name ++ ascii ": [" ++ (ascii ", ").intercalate (values.map Fraction.text) ++ ascii "]"

/-- The name of a stack in a dump. -/
def stackName (index : Nat) : Bytes :=
  ascii "stack " ++ Decimal.ofNat index

/-- The lines of a dump without their ends. -/
def dumpRows (machine : Machine) : List Bytes :=
  machine.store.entries.map (fun entry => dumpRow (stackName entry.1) entry.2.reverse) ++
    [dumpRow (ascii "queue") machine.queue.items,
      ascii "curses: " ++ Decimal.ofNat machine.curses]

theorem dump_eq (machine : Machine) :
    machine.dump = machine.dumpRows.flatMap (· ++ [Byte.lineFeed]) := by
  have line_eq (name : Bytes) (values : List Fraction) :
      dumpLine name values = dumpRow name values ++ [Byte.lineFeed] := by
    rw [dumpLine, dumpRow, List.append_assoc _ (ascii "]")]
    rfl
  have stacks_eq : machine.store.entries.flatMap dumpStack =
      (machine.store.entries.map fun entry => dumpRow (stackName entry.1) entry.2.reverse).flatMap
        (· ++ [Byte.lineFeed]) := by
    rw [List.flatMap_map]
    exact List.flatMap_congr fun entry _ => line_eq _ _
  simp only [dump, dumpRows, List.flatMap_append, stacks_eq, line_eq]
  simp

theorem not_mem_stackName {mark : UInt8} (not_digit : Byte.isDigit mark = false)
    (not_letter : mark ∉ ascii "stack ") (index : Nat) : mark ∉ stackName index := by
  rw [stackName, List.mem_append, not_or]
  exact ⟨not_letter, Decimal.not_mem_ofNat not_digit index⟩

theorem lineFeed_not_mem_dumpRow {name : Bytes} (name_free : Byte.lineFeed ∉ name)
    (values : List Fraction) : Byte.lineFeed ∉ dumpRow name values := by
  intro feed_mem
  simp only [dumpRow, List.mem_append] at feed_mem
  rcases feed_mem with ((name_mem | opening) | content_mem) | closing
  · exact name_free name_mem
  · exact absurd opening (by decide)
  · rcases Bytes.mem_of_mem_intercalate content_mem with comma | space | ⟨text, text_mem, feed_mem⟩
    · exact absurd comma (by decide)
    · exact absurd space (by decide)
    · rcases List.mem_map.mp text_mem with ⟨value, -, rfl⟩
      exact absurd (Fraction.isNumeric_of_mem_text feed_mem) (by decide)
  · exact absurd closing (by decide)

/-- The lines of a dump are found by splitting it. -/
theorem splitOn_dump (machine : Machine) :
    machine.dump.splitOn Byte.lineFeed = machine.dumpRows ++ [[]] := by
  rw [dump_eq]
  apply Listing.splitOn_flatMap_lineFeed
  intro row row_mem
  rcases List.mem_append.mp row_mem with stack_mem | last_mem
  · rcases List.mem_map.mp stack_mem with ⟨entry, -, rfl⟩
    exact lineFeed_not_mem_dumpRow (not_mem_stackName rfl (by decide) entry.1) _
  · simp only [List.mem_cons, List.not_mem_nil, or_false] at last_mem
    rcases last_mem with rfl | rfl
    · exact lineFeed_not_mem_dumpRow (by decide) _
    · rw [List.mem_append, not_or]
      exact ⟨by decide, Decimal.not_mem_ofNat rfl machine.curses⟩

variable {range : Range}

theorem map_text_inj {first second : List Fraction}
    (first_storable : ∀ value ∈ first, value.Storable range)
    (second_storable : ∀ value ∈ second, value.Storable range)
    (same : first.map Fraction.text = second.map Fraction.text) : first = second := by
  apply map_inj_of_mem _ same
  intro left left_mem right right_mem same_text
  exact (Fraction.text_inj (first_storable left left_mem) (second_storable right right_mem)).mp
    same_text

theorem dumpRow_inj {name other : Bytes} {first second : List Fraction}
    (name_free : Byte.colon ∉ name) (other_free : Byte.colon ∉ other)
    (first_storable : ∀ value ∈ first, value.Storable range)
    (second_storable : ∀ value ∈ second, value.Storable range)
    (same : dumpRow name first = dumpRow other second) : name = other ∧ first = second := by
  have cut (name : Bytes) (values : List Fraction) : dumpRow name values =
      name ++ Byte.colon :: (ascii " [" ++
        ((ascii ", ").intercalate (values.map Fraction.text) ++ ascii "]")) := by
    simp only [dumpRow, List.append_assoc]
    rfl
  have items (values : List Fraction) :
      ∀ text ∈ values.map Fraction.text, text ≠ [] ∧ Byte.comma ∉ text := by
    intro text text_mem
    rcases List.mem_map.mp text_mem with ⟨value, -, rfl⟩
    refine ⟨value.text_ne_nil, ?_⟩
    intro comma_mem
    exact absurd (Fraction.isNumeric_of_mem_text comma_mem) (by decide)
  rw [cut, cut] at same
  rcases Bytes.cutAt_inj name_free other_free same with ⟨same_name, same_content⟩
  have same_texts := Bytes.intercalate_inj (items first) (items second)
    (List.append_cancel_right (List.append_cancel_left same_content))
  exact ⟨same_name, map_text_inj first_storable second_storable same_texts⟩

theorem stackRow_inj {left right : Nat × List Fraction}
    (left_storable : ∀ value ∈ left.2, value.Storable range)
    (right_storable : ∀ value ∈ right.2, value.Storable range)
    (same : dumpRow (stackName left.1) left.2.reverse =
      dumpRow (stackName right.1) right.2.reverse) : left = right := by
  have colon_free (index : Nat) : Byte.colon ∉ stackName index :=
    not_mem_stackName rfl (by decide) index
  have reverse_storable {values : List Fraction} (storable : ∀ value ∈ values, value.Storable range)
      (value : Fraction) (value_mem : value ∈ values.reverse) : value.Storable range :=
    storable value (List.mem_reverse.mp value_mem)
  rcases dumpRow_inj (colon_free left.1) (colon_free right.1) (reverse_storable left_storable)
    (reverse_storable right_storable) same with ⟨same_name, same_values⟩
  have same_index := Decimal.ofNat_inj (List.append_cancel_left same_name)
  exact Prod.ext same_index (List.reverse_injective same_values)

theorem dumpRows_inj {first second : Machine} (first_formed : first.WellFormed range)
    (second_formed : second.WellFormed range) (same : first.dumpRows = second.dumpRows) :
    first.store = second.store ∧ first.queue.items = second.queue.items ∧
      first.curses = second.curses := by
  rcases List.append_inj' same rfl with ⟨same_stacks, same_last⟩
  rcases List.cons.inj same_last with ⟨same_queue, same_curses⟩
  refine ⟨?_, ?_, ?_⟩
  · apply Stacks.eq_of_entries
    apply map_inj_of_mem _ same_stacks
    intro left left_mem right right_mem
    exact stackRow_inj (first_formed.values.store left left_mem)
      (second_formed.values.store right right_mem)
  · exact (dumpRow_inj (by decide) (by decide) first_formed.values.queue
      second_formed.values.queue same_queue).2
  · exact Decimal.ofNat_inj (List.append_cancel_left (List.cons.inj same_curses).1)

theorem stackRows_eq (machine : Machine) :
    machine.store.entries.map (fun entry => dumpRow (stackName entry.1) entry.2.reverse) =
      (machine.store.entries.map Prod.fst).map fun index =>
        dumpRow (stackName index) (machine.store.content index).reverse := by
  rw [List.map_map]
  apply List.map_congr_left
  rintro ⟨index, values⟩ entry_mem
  have found := Stacks.mem_entries_iff.mp entry_mem
  simp [Stacks.content, found]

/--
A dump loses nothing. Two machines have the same dump exactly if they have the same stacks, empty
ones included, with the same values in the same order, the same queue and the same number of
curses. The lines of a dump are those of the stacks in increasing order of their numbers, each
with its bottom first, and then those of the queue and of the curses.
-/
theorem dump_loses_nothing {range : Range} {first second : Machine}
    (first_formed : first.WellFormed range) (second_formed : second.WellFormed range) :
    (first.dump = second.dump ↔
      (∀ index, first.store.get? index = second.store.get? index) ∧
        first.queue.items = second.queue.items ∧ first.curses = second.curses) ∧
    ∃ indexes : List Nat, indexes.Pairwise (· < ·) ∧
      (∀ index, index ∈ indexes ↔ (first.store.get? index).isSome) ∧
      first.dump.splitOn Byte.lineFeed =
        (indexes.map fun index =>
          ascii "stack " ++ Decimal.ofNat index ++ ascii ": [" ++
            (ascii ", ").intercalate ((first.store.content index).reverse.map Fraction.text) ++
            ascii "]") ++
        [ascii "queue: [" ++ (ascii ", ").intercalate (first.queue.items.map Fraction.text) ++
            ascii "]",
          ascii "curses: " ++ Decimal.ofNat first.curses, []] := by
  refine ⟨?_, first.store.entries.map Prod.fst, ?_, ?_, ?_⟩
  · rw [← Stacks.eq_iff_get?]
    constructor
    · intro same
      have same_rows := congrArg (List.splitOn Byte.lineFeed) same
      rw [splitOn_dump, splitOn_dump] at same_rows
      exact dumpRows_inj first_formed second_formed (List.append_cancel_right same_rows)
    · rintro ⟨same_store, same_queue, same_curses⟩
      simp only [dump, same_store, same_queue, same_curses]
  · exact List.pairwise_map.mpr first.store.increasing
  · intro index
    exact Stacks.mem_map_fst_entries
  · rw [splitOn_dump, dumpRows, stackRows_eq, List.append_assoc]
    rfl

/-- An empty stack is told from an absent one, below a stack whose number has two digits. -/
theorem dump_loses_nothing_empty_stack :
    let first : Machine :=
      { store := { entries := [(2, []), (10, [⟨-3, 1⟩, ⟨1, 2⟩])] }, queue := ⟨[⟨0, 1⟩]⟩, curses := 7 }
    let second : Machine :=
      { store := { entries := [(10, [⟨-3, 1⟩, ⟨1, 2⟩])] }, queue := ⟨[⟨0, 1⟩]⟩, curses := 7 }
    first.WellFormed .bounded ∧ second.WellFormed .bounded ∧ first.dump ≠ second.dump := by
  intro first second
  have first_formed : first.WellFormed .bounded :=
    ⟨⟨by unfold Stacks.Every; decide, by decide⟩, by unfold Stacks.NoZero; decide⟩
  have second_formed : second.WellFormed .bounded :=
    ⟨⟨by unfold Stacks.Every; decide, by decide⟩, by unfold Stacks.NoZero; decide⟩
  refine ⟨first_formed, second_formed, ?_⟩
  intro same
  have same_stacks := ((dump_loses_nothing first_formed second_formed).1.mp same).1
  exact absurd (same_stacks 2) (by decide)

end Machine

end SpanMachine
