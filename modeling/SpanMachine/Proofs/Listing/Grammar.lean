import Mathlib.Data.List.Forall2
import Mathlib.Data.List.Induction
import Mathlib.Data.List.TakeWhile
import SpanMachine.Listing.Draft

/-!
# The grammar of listings

What a listing is and which program it denotes is said here without reading it from
left to right: a text is a list of rows of words, and all conditions are conditions on
these rows. There are no columns, no drafts and no order in which faults are found.

A row is an optional label, a word with a final colon, and an optional body, which is
a mnemonic followed by the operands of its opcode. A label may be defined in any row,
and it stands for the number of bodies in the rows above its own.
-/

namespace SpanMachine

/-- The operands that a listing spells out, in order. -/
def Opcode.operands : Opcode → List Operand
  | push => [.span, .magnitude]
  | jumpUnlessPositive => [.span, .target]
  | jump => [.target]
  | halt => []
  | combine _ | enqueue | dequeue | spread | putNumber | putPoint | getNumber | getPoint => [.span]

/-- The word that an operand of the instruction spells out. -/
def Instruction.operand (instruction : Instruction) : Operand → UInt64
  | .span => instruction.span
  | .magnitude => instruction.magnitude
  | .target => instruction.magnitude

namespace Listing

/-- The maximal runs of bytes other than whitespace before the first semicolon. -/
def words (line : Bytes) : List Bytes :=
  ((line.takeWhile (· != Byte.semicolon)).splitOnP Byte.isSpace).filter (!·.isEmpty)

/-- The words of each line; lines end at line feeds and lose one carriage return at their end. -/
def rows (text : Bytes) : List (List Bytes) :=
  (text.splitOn Byte.lineFeed).map fun line => words (dropReturn line)

/-- The name that a row defines. -/
def nameOf : List Bytes → Option Bytes
  | [] => none
  | first :: _ => if first.getLast? = some Byte.colon then some first.dropLast else none

/-- The words of a row after its label. -/
def bodyOf : List Bytes → List Bytes
  | [] => []
  | first :: rest => if first.getLast? = some Byte.colon then rest else first :: rest

/-- The names defined in the given rows. -/
def names (rows : List (List Bytes)) : List Bytes :=
  rows.filterMap nameOf

/-- A body and the number of its row, counted from zero. -/
structure Entry where
  line : Nat
  mnemonic : Bytes
  operands : List Bytes

/-- The entry of a row, if it has a body. -/
def entryOf (row : List Bytes) (line : Nat) : Option Entry :=
  match bodyOf row with
  | [] => none
  | mnemonic :: operands => some ⟨line, mnemonic, operands⟩

/-- The bodies of all rows, from top to bottom. -/
def entries (rows : List (List Bytes)) : List Entry :=
  rows.zipIdx.filterMap fun row => entryOf row.1 row.2

/-- The number of bodies above the row that defines a name. -/
def place (rows : List (List Bytes)) (name : Bytes) : Nat :=
  ((rows.takeWhile fun row => nameOf row != some name).filter fun row => bodyOf row != []).length

/-- A numeral below `2 ^ 64`. -/
def IsWord (word : Bytes) : Prop :=
  Decimal.isNumeral word = true ∧ Decimal.value word < UInt64.size

/-- The words that an operand may be, where the given names are those of labels. -/
def Accepts (defined : Bytes → Prop) : Operand → Bytes → Prop
  | .span, word => IsWord word
  | .magnitude, word => IsWord word
  | .target, word => IsWord word ∨ (isLabelName word = true ∧ defined word)

/-- A mnemonic with exactly the operands that belong to it. -/
def Entry.IsFormed (defined : Bytes → Prop) (entry : Entry) : Prop :=
  ∃ opcode : Opcode, opcode.mnemonic = entry.mnemonic ∧
    List.Forall₂ (Accepts defined) opcode.operands entry.operands

/-- The form of a listing, where jumps may lead to the given names. -/
structure IsFormed (defined : Bytes → Prop) (rows : List (List Bytes)) : Prop where
  entries_formed : ∀ entry ∈ entries rows, entry.IsFormed defined
  names_formed : ∀ name ∈ names rows, isLabelName name = true
  names_distinct : (names rows).Nodup

/-- The rows of a listing that can be read: its jumps lead to names that it defines. -/
def Grammatical (rows : List (List Bytes)) : Prop :=
  IsFormed (· ∈ names rows) rows

/-- The part of an instruction that a word states. -/
def States (rows : List (List Bytes)) (instruction : Instruction) : Operand → Bytes → Prop
  | .span, word => instruction.span.toNat = Decimal.value word
  | .magnitude, word => instruction.magnitude.toNat = Decimal.value word
  | .target, word => instruction.magnitude.toNat =
      if isLabelName word then place rows word else Decimal.value word

/-- The instruction that a body states. What its mnemonic does not spell out is zero. -/
structure Denotes (rows : List (List Bytes)) (entry : Entry) (instruction : Instruction) :
    Prop where
  mnemonic : instruction.opcode.mnemonic = entry.mnemonic
  operands : List.Forall₂ (States rows instruction) instruction.opcode.operands entry.operands
  span_zero : .span ∉ instruction.opcode.operands → instruction.span = 0
  magnitude_zero : .magnitude ∉ instruction.opcode.operands →
    .target ∉ instruction.opcode.operands → instruction.magnitude = 0
  origin : instruction.origin = entry.line + 1

/-- One item for each body, and a label in its place for each name. -/
structure Outlines {α : Type} (R : Entry → α → Prop) (rows : List (List Bytes)) (items : List α)
    (labels : List Label) : Prop where
  items : List.Forall₂ R (entries rows) items
  label_names : labels.map Label.name = names rows
  label_places : ∀ label ∈ labels, label.index = place rows label.name

/-- The program that the rows denote. -/
def DenotesProgram (rows : List (List Bytes)) (program : Program) : Prop :=
  Outlines (Denotes rows) rows program.code program.labels

theorem names_append_singleton (rows : List (List Bytes)) (row : List Bytes) :
    names (rows ++ [row]) = names rows ++ (nameOf row).toList := by
  rw [names, List.filterMap_append]
  cases named : nameOf row <;> simp [names, named]

theorem entries_append_singleton (rows : List (List Bytes)) (row : List Bytes) :
    entries (rows ++ [row]) = entries rows ++ (entryOf row rows.length).toList := by
  rw [entries, List.zipIdx_append, List.filterMap_append]
  cases stated : entryOf row rows.length <;> simp [entries, stated]

theorem length_entries (rows : List (List Bytes)) :
    (entries rows).length = (rows.filter fun row => bodyOf row != []).length := by
  induction rows using List.reverseRecOn with
  | nil => rfl
  | append_singleton rows row ih =>
      rw [entries_append_singleton, List.length_append, ih, List.filter_append, List.length_append]
      congr 1
      cases stated : bodyOf row with
      | nil => simp [entryOf, stated]
      | cons mnemonic operands => simp [entryOf, stated]

theorem length_entries_le (rows : List (List Bytes)) : (entries rows).length ≤ rows.length := by
  rw [length_entries]
  exact List.length_filter_le _ _

theorem takeWhile_not_named {rows : List (List Bytes)} {name : Bytes} (fresh : name ∉ names rows) :
    (rows.takeWhile fun row => nameOf row != some name) = rows := by
  have passes : ∀ row ∈ rows, (nameOf row != some name) = true := by
    intro row row_mem
    rw [bne_iff_ne]
    intro named
    exact fresh (List.mem_filterMap.mpr ⟨row, row_mem, named⟩)
  have taken : ((rows ++ []).takeWhile fun row => nameOf row != some name) = rows ++ [] :=
    List.takeWhile_append_of_pos passes
  simpa using taken

/-- Rows below its own do not move a label. -/
theorem place_append {rows : List (List Bytes)} {name : Bytes} (defined : name ∈ names rows)
    (more : List (List Bytes)) : place (rows ++ more) name = place rows name := by
  rcases List.mem_filterMap.mp defined with ⟨row, row_mem, named⟩
  have stops : (rows.takeWhile fun row => nameOf row != some name).length ≠ rows.length := by
    intro same_length
    have whole := (List.takeWhile_prefix _).eq_of_length same_length
    rw [← whole] at row_mem
    have passes := List.mem_takeWhile_imp row_mem
    simp [named] at passes
  rw [place, List.takeWhile_append, if_neg stops, place]

/-- A label that is new in the last row has all bodies above it. -/
theorem place_append_singleton {rows : List (List Bytes)} {row : List Bytes} {name : Bytes}
    (fresh : name ∉ names rows) (named : nameOf row = some name) :
    place (rows ++ [row]) name = (entries rows).length := by
  have stops_at_row : ([row].takeWhile fun row => nameOf row != some name) = [] := by
    simp [named]
  rw [place, List.takeWhile_append, takeWhile_not_named fresh, if_pos rfl, stops_at_row,
    List.append_nil, length_entries]

theorem place_le (rows : List (List Bytes)) (name : Bytes) :
    place rows name ≤ (entries rows).length := by
  have taken : (rows.takeWhile fun row => nameOf row != some name).Sublist rows :=
    (List.takeWhile_prefix _).sublist
  rw [length_entries]
  exact (taken.filter _).length_le

/-- Names that are defined further down stand for later places. -/
theorem places_sorted {rows : List (List Bytes)} (distinct : (names rows).Nodup) :
    (names rows).Pairwise fun first second => place rows first ≤ place rows second := by
  induction rows using List.reverseRecOn with
  | nil => exact List.Pairwise.nil
  | append_singleton rows row ih =>
      rw [names_append_singleton, List.nodup_append] at distinct
      rcases distinct with ⟨distinct, -, apart⟩
      rw [names_append_singleton, List.pairwise_append]
      refine ⟨?_, ?_, ?_⟩
      · apply (ih distinct).imp_of_mem
        intro first second first_mem second_mem above
        rwa [place_append first_mem, place_append second_mem]
      · cases nameOf row <;> simp
      · intro first first_mem second second_mem
        have fresh : second ∉ names rows := by
          intro second_old
          exact apart second second_old second second_mem rfl
        rw [place_append first_mem, place_append_singleton fresh (by simpa using second_mem)]
        exact place_le rows first

/-- A further row adds its label and its item. -/
theorem Outlines.append {α : Type} {R : Entry → α → Prop} {rows : List (List Bytes)}
    {items more : List α} {labels : List Label} (outlines : Outlines R rows items labels)
    {row : List Bytes} (fresh : ∀ name, nameOf row = some name → name ∉ names rows)
    (related : List.Forall₂ R (entryOf row rows.length).toList more) :
    Outlines R (rows ++ [row]) (items ++ more)
      (labels ++ ((nameOf row).map (Label.mk items.length)).toList) := by
  have same_length : (entries rows).length = items.length := outlines.items.length_eq
  constructor
  · rw [entries_append_singleton]
    exact List.rel_append outlines.items related
  · rw [names_append_singleton, List.map_append, outlines.label_names]
    cases nameOf row <;> rfl
  · intro label label_mem
    rcases List.mem_append.mp label_mem with label_mem | label_mem
    · have is_defined : label.name ∈ names rows := by
        rw [← outlines.label_names]
        exact List.mem_map_of_mem label_mem
      rw [place_append is_defined]
      exact outlines.label_places label label_mem
    · rw [Option.mem_toList, Option.map_eq_some_iff] at label_mem
      rcases label_mem with ⟨name, named, rfl⟩
      rw [place_append_singleton (fresh name named) named]
      exact same_length.symm

/-- The labels are determined by the rows. -/
theorem Outlines.labels_eq {α : Type} {R : Entry → α → Prop} {rows : List (List Bytes)}
    {items : List α} {labels : List Label} (outlines : Outlines R rows items labels) :
    labels = (names rows).map fun name => ⟨place rows name, name⟩ := by
  have same : labels.map (fun label => ⟨place rows label.name, label.name⟩) = labels.map id := by
    apply List.map_congr_left
    intro label label_mem
    rw [← outlines.label_places label label_mem]
    rfl
  rw [← outlines.label_names, List.map_map]
  exact (same.trans (List.map_id _)).symm

theorem Accepts.mono {defined others : Bytes → Prop} (weaker : ∀ name, defined name → others name)
    {operand : Operand} {word : Bytes} (accepted : Accepts defined operand word) :
    Accepts others operand word := by
  cases operand with
  | span | magnitude => exact accepted
  | target => exact accepted.imp_right (And.imp_right (weaker word))

theorem IsFormed.mono {defined others : Bytes → Prop} {rows : List (List Bytes)}
    (formed : IsFormed defined rows) (weaker : ∀ name, defined name → others name) :
    IsFormed others rows := by
  refine ⟨?_, formed.names_formed, formed.names_distinct⟩
  intro entry entry_mem
  rcases formed.entries_formed entry entry_mem with ⟨opcode, mnemonic, accepted⟩
  exact ⟨opcode, mnemonic, accepted.imp fun _ _ => Accepts.mono weaker⟩

/-- Rows from the top of a well-formed listing are well formed. -/
theorem IsFormed.of_append {defined : Bytes → Prop} {rows more : List (List Bytes)}
    (formed : IsFormed defined (rows ++ more)) : IsFormed defined rows := by
  constructor
  · intro entry entry_mem
    apply formed.entries_formed
    rw [entries, List.zipIdx_append, List.filterMap_append]
    exact List.mem_append_left _ entry_mem
  · intro name name_mem
    apply formed.names_formed
    rw [names, List.filterMap_append]
    exact List.mem_append_left _ name_mem
  · have names_distinct := formed.names_distinct
    rw [names, List.filterMap_append] at names_distinct
    exact (List.nodup_append.mp names_distinct).1

/-- An empty last row changes nothing. -/
theorem place_append_blank (rows : List (List Bytes)) (name : Bytes) :
    place (rows ++ [[]]) name = place rows name := by
  rw [place, List.takeWhile_append]
  split
  · rename_i same_length
    have whole := (List.takeWhile_prefix _).eq_of_length same_length
    rw [place, whole]
    simp [nameOf, bodyOf]
  · rfl

theorem names_append_blank (rows : List (List Bytes)) : names (rows ++ [[]]) = names rows := by
  rw [names_append_singleton]
  exact List.append_nil _

theorem entries_append_blank (rows : List (List Bytes)) :
    entries (rows ++ [[]]) = entries rows := by
  rw [entries_append_singleton]
  exact List.append_nil _

theorem grammatical_append_blank (rows : List (List Bytes)) :
    Grammatical (rows ++ [[]]) ↔ Grammatical rows := by
  constructor
  · rintro ⟨entries_formed, names_formed, names_distinct⟩
    rw [names_append_blank] at entries_formed names_formed names_distinct
    rw [entries_append_blank] at entries_formed
    exact ⟨entries_formed, names_formed, names_distinct⟩
  · rintro ⟨entries_formed, names_formed, names_distinct⟩
    rw [← names_append_blank] at entries_formed names_formed names_distinct
    rw [← entries_append_blank] at entries_formed
    exact ⟨entries_formed, names_formed, names_distinct⟩

theorem outlines_append_blank {α : Type} {R : Entry → α → Prop} (rows : List (List Bytes))
    (items : List α) (labels : List Label) :
    Outlines R (rows ++ [[]]) items labels ↔ Outlines R rows items labels := by
  constructor
  · rintro ⟨related, label_names, label_places⟩
    simp only [place_append_blank] at label_places
    rw [names_append_blank] at label_names
    rw [entries_append_blank] at related
    exact ⟨related, label_names, label_places⟩
  · rintro ⟨related, label_names, label_places⟩
    simp only [← place_append_blank rows] at label_places
    rw [← names_append_blank] at label_names
    rw [← entries_append_blank] at related
    exact ⟨related, label_names, label_places⟩

theorem denotesProgram_append_blank (rows : List (List Bytes)) (program : Program) :
    DenotesProgram (rows ++ [[]]) program ↔ DenotesProgram rows program := by
  have states_eq : States (rows ++ [[]]) = States rows := by
    funext instruction operand word
    cases operand <;> simp only [States, place_append_blank]
  have denotes_eq : Denotes (rows ++ [[]]) = Denotes rows := by
    funext entry instruction
    apply propext
    constructor
    · rintro ⟨mnemonic, operands, span_zero, magnitude_zero, origin⟩
      rw [states_eq] at operands
      exact ⟨mnemonic, operands, span_zero, magnitude_zero, origin⟩
    · rintro ⟨mnemonic, operands, span_zero, magnitude_zero, origin⟩
      rw [← states_eq] at operands
      exact ⟨mnemonic, operands, span_zero, magnitude_zero, origin⟩
  rw [DenotesProgram, denotes_eq, outlines_append_blank]
  rfl

end Listing

end SpanMachine
