import SpanMachine.Proofs.Console
import SpanMachine.Proofs.Execution.Effect
import SpanMachine.Proofs.Number.Text

/-!
# Printed numbers as input

Fractions that are printed with whitespace between them can be read again, one with each
instruction that reads a number. A read skips the gap in front, takes the text of the next
fraction and leaves the gap behind it, so that what is left has the same form with one
fraction less. When there is no fraction left, the read is cursed and stands in a zero.
-/

namespace SpanMachine

namespace Fraction

/-- A gap, and fractions each of which is printed with a gap behind it. -/
def layout (before : Bytes) (entries : List (Fraction × Bytes)) : Bytes :=
  before ++ entries.flatMap fun entry => entry.1.text ++ entry.2

/--
The fractions may be stored and the gaps are whitespace, of which only the first one and the
last one may be empty.
-/
structure Spaced (range : Range) (before : Bytes) (entries : List (Fraction × Bytes)) : Prop where
  storable : ∀ entry ∈ entries, entry.1.Storable range
  before_blank : ∀ byte ∈ before, Byte.isSpace byte = true
  blank : ∀ entry ∈ entries, ∀ byte ∈ entry.2, Byte.isSpace byte = true
  apart : ∀ entry ∈ entries.dropLast, entry.2 ≠ []

namespace Spaced

variable {range : Range} {before : Bytes} {entry : Fraction × Bytes}
  {entries : List (Fraction × Bytes)}

theorem tail (spaced : Spaced range before (entry :: entries)) :
    Spaced range entry.2 entries := by
  constructor
  · intro other otherMem
    exact spaced.storable other (List.mem_cons_of_mem _ otherMem)
  · exact spaced.blank entry List.mem_cons_self
  · intro other otherMem
    exact spaced.blank other (List.mem_cons_of_mem _ otherMem)
  · intro other otherMem
    apply spaced.apart other
    cases entries with
    | nil => cases otherMem
    | cons next later => exact List.mem_cons_of_mem _ otherMem

/-- What follows the text of a fraction does not prolong it. -/
theorem isSpace_head?_layout (spaced : Spaced range before (entry :: entries)) :
    ∀ byte ∈ (layout entry.2 entries).head?, Byte.isSpace byte = true := by
  intro byte byteMem
  cases gap_eq : entry.2 with
  | nil =>
      -- An empty gap can only be the last one, and nothing follows it.
      cases entries with
      | nil =>
          rw [gap_eq] at byteMem
          cases byteMem
      | cons next later => exact absurd gap_eq (spaced.apart entry List.mem_cons_self)
  | cons first others =>
      rw [layout, gap_eq] at byteMem
      cases byteMem
      apply spaced.blank entry List.mem_cons_self
      rw [gap_eq]
      exact List.mem_cons_self

theorem readWord (spaced : Spaced range before (entry :: entries)) (output : Bytes) :
    (Console.mk (layout before (entry :: entries)) output).readWord =
      (some entry.1.text, ⟨layout entry.2 entries, output⟩) := by
  have split : layout before (entry :: entries) =
      before ++ entry.1.text ++ layout entry.2 entries := by
    simp [layout]
  rw [split]
  apply Console.readWord_of_blank spaced.before_blank entry.1.text_ne_nil
  · intro byte byteMem
    exact Byte.isSpace_of_isNumeric (isNumeric_of_mem_text byteMem)
  · exact spaced.isSpace_head?_layout

end Spaced

end Fraction

namespace Machine

open Fraction

theorem getNumber_of_spaced {range : Range} {before : Bytes} {entry : Fraction × Bytes}
    {entries : List (Fraction × Bytes)} (spaced : Spaced range before (entry :: entries))
    (machine : Machine) (index : Nat) (output : Bytes) :
    machine.getNumber range index ⟨layout before (entry :: entries), output⟩ =
      (machine.push index entry.1, ⟨layout entry.2 entries, output⟩) := by
  have read := read?_text (spaced.storable entry List.mem_cons_self)
  simp [getNumber, spaced.readWord, read]

theorem getNumber_of_blank {range : Range} {before : Bytes} (spaced : Spaced range before [])
    (machine : Machine) (index : Nat) (output : Bytes) :
    machine.getNumber range index ⟨layout before [], output⟩ =
      (machine.curse.push index .zero, ⟨[], output⟩) := by
  have no_entries : layout before [] = before := by
    simp [layout]
  rw [no_entries]
  simp [getNumber, Console.readWord_blank spaced.before_blank]

/-- All that happened, curses apart, is that values were pushed onto one stack in their order. -/
structure Pushed (before : Machine) (index : Nat) (values : List Fraction) (after : Machine) :
    Prop where
  content : after.store.content index = values.reverse ++ before.store.content index
  others : ∀ other ≠ index, after.store.get? other = before.store.get? other
  queue : after.queue = before.queue

namespace Pushed

variable {index : Nat} {values : List Fraction} {before after : Machine}

theorem refl (machine : Machine) (index : Nat) : Pushed machine index [] machine :=
  ⟨rfl, fun _ _ => rfl, rfl⟩

theorem of_push (index_ne_zero : index ≠ 0) {value : Fraction}
    (pushed : Pushed (before.push index value) index values after) :
    Pushed before index (value :: values) after := by
  have store_eq : (before.push index value).store =
      before.store.set index (value :: before.store.content index) := by
    simp [push, Stacks.push, index_ne_zero]
  constructor
  · rw [pushed.content, store_eq, Stacks.content_set_self]
    simp
  · intro other other_ne_index
    rw [pushed.others other other_ne_index, store_eq]
    exact Stacks.get?_set_of_ne other_ne_index _ _
  · exact pushed.queue

end Pushed

end Machine

namespace Instruction

open Fraction Machine

/-- The state after a number of executions of one instruction, wherever it asks to go. -/
def repeated (instruction : Instruction) (range : Range) (machine : Machine) (console : Console) :
    Nat → Machine × Console
  | 0 => (machine, console)
  | count + 1 =>
    let effect := instruction.execute range machine console
    instruction.repeated range effect.machine effect.console count

section Reading

variable {instruction : Instruction} {range : Range} {before : Bytes}
  {entries : List (Fraction × Bytes)}

theorem repeated_succ_of_getNumber (reads : instruction.opcode = .getNumber) (range : Range)
    (machine : Machine) (console : Console) (count : Nat) :
    instruction.repeated range machine console (count + 1) =
      instruction.repeated range (machine.getNumber range instruction.span.toNat console).1
        (machine.getNumber range instruction.span.toNat console).2 count := by
  simp only [repeated, execute, reads]
  rfl

theorem pushed_repeated (reads : instruction.opcode = .getNumber)
    (index_ne_zero : instruction.span.toNat ≠ 0) (spaced : Spaced range before entries)
    (machine : Machine) (output : Bytes) {count : Nat} (count_le : count ≤ entries.length) :
    let after := instruction.repeated range machine ⟨layout before entries, output⟩ count
    Pushed machine instruction.span.toNat ((entries.map Prod.fst).take count) after.1 ∧
      after.1.curses = machine.curses := by
  induction entries generalizing before machine count with
  | nil =>
      have none_read : count = 0 := Nat.le_zero.mp count_le
      subst none_read
      exact ⟨.refl machine _, rfl⟩
  | cons entry entries ih =>
      cases count with
      | zero => exact ⟨.refl machine _, rfl⟩
      | succ count =>
          -- The gap behind the fraction is now the one in front of the others.
          rw [repeated_succ_of_getNumber reads, getNumber_of_spaced spaced]
          rcases ih spaced.tail (machine.push instruction.span.toNat entry.1)
            (Nat.le_of_succ_le_succ count_le) with ⟨pushed, same_curses⟩
          exact ⟨pushed.of_push index_ne_zero, same_curses⟩

theorem pushed_repeated_beyond (reads : instruction.opcode = .getNumber)
    (index_ne_zero : instruction.span.toNat ≠ 0) (spaced : Spaced range before entries)
    (machine : Machine) (output : Bytes) :
    let after :=
      instruction.repeated range machine ⟨layout before entries, output⟩ (entries.length + 1)
    Pushed machine instruction.span.toNat (entries.map Prod.fst ++ [.zero]) after.1 ∧
      after.1.curses = machine.curses + 1 := by
  induction entries generalizing before machine with
  | nil =>
      rw [repeated_succ_of_getNumber reads, getNumber_of_blank spaced]
      have pushed : Pushed machine.curse instruction.span.toNat [.zero]
          (machine.curse.push instruction.span.toNat .zero) :=
        (Pushed.refl _ _).of_push index_ne_zero
      exact ⟨⟨pushed.content, pushed.others, pushed.queue⟩, rfl⟩
  | cons entry entries ih =>
      rw [repeated_succ_of_getNumber reads, getNumber_of_spaced spaced]
      rcases ih spaced.tail (machine.push instruction.span.toNat entry.1) with
        ⟨pushed, one_curse⟩
      exact ⟨pushed.of_push index_ne_zero, one_curse⟩

end Reading

/--
Printed numbers are read back exactly. A fraction that may be stored is what its own text is
read as. From the texts of such fractions with whitespace between them, reading a number onto
a stack again and again pushes these fractions in their order without a curse; one more read
raises one curse and pushes a zero.
-/
theorem printed_numbers_read_back (range : Range) :
    (∀ value : Fraction, value.Storable range →
      Numeral.read? range value.text = some value) ∧
    ∀ (instruction : Instruction) (machine : Machine) (before output : Bytes)
      (entries : List (Fraction × Bytes)),
      instruction.opcode = .getNumber → instruction.span ≠ 0 → Spaced range before entries →
        let after := instruction.repeated range machine ⟨layout before entries, output⟩
        let index := instruction.span.toNat
        let values := entries.map Prod.fst
        (∀ count ≤ values.length,
          Pushed machine index (values.take count) (after count).1 ∧
            (after count).1.curses = machine.curses) ∧
          Pushed machine index (values ++ [.zero]) (after (values.length + 1)).1 ∧
          (after (values.length + 1)).1.curses = machine.curses + 1 := by
  constructor
  · intro value storable
    exact read?_text storable
  · intro instruction machine before output entries reads span_ne_zero spaced after index values
    have index_ne_zero : index ≠ 0 := by
      intro index_eq_zero
      exact span_ne_zero (UInt64.toNat_inj.mp index_eq_zero)
    have same_length : values.length = entries.length := List.length_map _
    rw [same_length]
    constructor
    · intro count count_le
      exact pushed_repeated reads index_ne_zero spaced machine output count_le
    · exact pushed_repeated_beyond reads index_ne_zero spaced machine output

/-- The least integer, a fraction with the longest text and a half, with no gap behind the last. -/
theorem printed_numbers_read_back_at_limits :
    let least : Fraction := ⟨-0x8000000000000000, 1⟩
    let long : Fraction := ⟨-0x8000000000000000, 0x7FFFFFFFFFFFFFFF⟩
    let half : Fraction := ⟨1, 2⟩
    let entries : List (Fraction × Bytes) :=
      [(least, [Byte.space]), (long, [Byte.lineFeed, Byte.space]), (half, [])]
    let after := (Instruction.mk .getNumber 7 0 0).repeated .bounded {}
      ⟨layout [Byte.tab] entries, []⟩
    Spaced .bounded [Byte.tab] entries ∧
      Numeral.read? .bounded long.text = some long ∧
      (after 3).1.store.content 7 = [half, long, least] ∧ (after 3).1.curses = 0 ∧
      (after 4).1.store.content 7 = [.zero, half, long, least] ∧ (after 4).1.curses = 1 := by
  intro least long half entries after
  have spaced : Spaced .bounded [Byte.tab] entries := by
    constructor
    · decide
    · simp [Byte.isSpace, Byte.tab]
    · simp [entries, Byte.isSpace, Byte.space, Byte.lineFeed]
    · decide
  rcases printed_numbers_read_back .bounded with ⟨reread, read_all⟩
  rcases read_all ⟨.getNumber, 7, 0, 0⟩ {} [Byte.tab] [] entries rfl (by decide) spaced with
    ⟨read_some, read_beyond, cursed⟩
  rcases read_some 3 (by decide) with ⟨pushed, blameless⟩
  exact ⟨spaced, reread long (by decide), pushed.content, blameless,
    read_beyond.content, cursed⟩

end Instruction

end SpanMachine
