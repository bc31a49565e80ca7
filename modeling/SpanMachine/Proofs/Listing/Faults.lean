import Mathlib.Data.List.Nodup
import SpanMachine.Proofs.Listing.Columns
import SpanMachine.Proofs.Listing.Statements

/-!
# Faults of rows

A listing that cannot be read may have many faults, of which one is reported. Which one it
is can be said on the rows of the listing. A row is faulty by its label, or else by its body,
and the fault of a body is its mnemonic, or else the number of its operands, or else the first
operand that is refused. The first faulty row counts. Only where no row is faulty does it
matter whether the jumps lead to names that are defined, and then the first one that does not
is reported.

The words concerned are counted in their row. A part of a line that is marked by these words
is therefore the text that the fault names.
-/

namespace SpanMachine

namespace Opcode

end Opcode

namespace Listing

/-- What is wrong with a body, and the first and the last of its words that are concerned. -/
inductive BodyFault : List Bytes → Fault → Nat → Nat → Prop where
  | unknownMnemonic {word : Bytes} (unknown : ∀ opcode : Opcode, opcode.mnemonic ≠ word)
      (operands : List Bytes) : BodyFault (word :: operands) (.unknownMnemonic word) 0 0
  | operandCount {opcode : Opcode} {operands : List Bytes}
      (differs : operands.length ≠ opcode.operands.length) :
      BodyFault (opcode.mnemonic :: operands)
        (.operandCount opcode.mnemonic opcode.operands.length operands.length) 0 operands.length
  | malformed {opcode : Opcode} {kinds rest : List Operand} {operand : Operand}
      {words others : List Bytes} {word : Bytes}
      (complete : (words ++ word :: others).length = opcode.operands.length)
      (shape : opcode.operands = kinds ++ operand :: rest)
      (accepted : List.Forall₂ (Accepts fun _ => True) kinds words)
      (refused : ¬Accepts (fun _ => True) operand word) :
      BodyFault (opcode.mnemonic :: (words ++ word :: others)) (.malformed operand word)
        (words.length + 1) (words.length + 1)

/-- The number of the word with which the body of a row begins. -/
def bodyStart (row : List Bytes) : Nat :=
  (nameOf row).toList.length

/--
What is wrong with a row below rows that define the given names, and the first and the last of
its words that are concerned. A name used as a target is not wrong by itself.
-/
inductive RowFault (defined row : List Bytes) : Fault → Nat → Nat → Prop where
  | invalidLabel {name : Bytes} (named : nameOf row = some name)
      (invalid : isLabelName name = false) : RowFault defined row (.invalidLabel name) 0 0
  | duplicateLabel {name : Bytes} (named : nameOf row = some name)
      (valid : isLabelName name = true) (twice : name ∈ defined) :
      RowFault defined row (.duplicateLabel name) 0 0
  | body {fault : Fault} {start stop : Nat}
      (label_formed : ∀ name, nameOf row = some name → isLabelName name = true ∧ name ∉ defined)
      (faulty : BodyFault (bodyOf row) fault start stop) :
      RowFault defined row fault (bodyStart row + start) (bodyStart row + stop)

/-- A fault of the row with the given number. -/
def FaultAt (rows : List (List Bytes)) (index : Nat) (fault : Fault) (start stop : Nat) : Prop :=
  ∃ row, rows[index]? = some row ∧ RowFault (names (rows.take index)) row fault start stop

/-- A row with a jump to a name, which is the word of the row with the given number. -/
inductive JumpsTo (row : List Bytes) (name : Bytes) : Nat → Prop where
  | always (is_name : isLabelName name = true)
      (body : bodyOf row = [Opcode.jump.mnemonic, name]) : JumpsTo row name (bodyStart row + 1)
  | unlessPositive {span : Bytes} (is_name : isLabelName name = true)
      (body : bodyOf row = [Opcode.jumpUnlessPositive.mnemonic, span, name]) :
      JumpsTo row name (bodyStart row + 2)

/-- The fault of a listing that counts, with its row and the words concerned. -/
inductive Reported (rows : List (List Bytes)) (index : Nat) : Fault → Nat → Nat → Prop where
  | row {fault : Fault} {start stop : Nat} (faulty : FaultAt rows index fault start stop)
      (first : ∀ above < index, ∀ fault start stop, ¬FaultAt rows above fault start stop) :
      Reported rows index fault start stop
  | label {row : List Bytes} {name : Bytes} {position : Nat} (row_at : rows[index]? = some row)
      (jumps : JumpsTo row name position) (undefined : name ∉ names rows)
      (no_faults : ∀ other fault start stop, ¬FaultAt rows other fault start stop)
      (first : ∀ above < index, ∀ row name position, rows[above]? = some row →
        JumpsTo row name position → name ∈ names rows) :
      Reported rows index (.undefinedLabel name) position position

/-- A faulty body is not well formed. -/
theorem BodyFault.not_isFormed {mnemonic : Bytes} {operands : List Bytes} {fault : Fault}
    {start stop : Nat} (faulty : BodyFault (mnemonic :: operands) fault start stop) (line : Nat) :
    ¬Entry.IsFormed (fun _ => True) ⟨line, mnemonic, operands⟩ := by
  rintro ⟨opcode, same_mnemonic, accepted⟩
  simp only at same_mnemonic accepted
  cases faulty with
  | unknownMnemonic unknown => exact unknown opcode same_mnemonic
  | operandCount differs =>
      cases Opcode.mnemonic_injective same_mnemonic
      exact differs accepted.length_eq.symm
  | @malformed _ kinds _ _ _ _ _ complete shape words_accepted refused =>
      cases Opcode.mnemonic_injective same_mnemonic
      have others_accepted := List.forall₂_drop kinds.length accepted
      rw [shape, List.drop_left, List.drop_left' words_accepted.length_eq.symm] at others_accepted
      cases others_accepted with
      | cons word_accepted => exact refused word_accepted

theorem entryOf_eq_some_iff {row : List Bytes} {line : Nat} {entry : Entry} :
    entryOf row line = some entry ↔
      entry.line = line ∧ bodyOf row = entry.mnemonic :: entry.operands := by
  rcases entry with ⟨number, mnemonic, operands⟩
  unfold entryOf
  cases bodyOf row with
  | nil => simp
  | cons word others => simp [eq_comm]

theorem mem_entries_iff {rows : List (List Bytes)} {entry : Entry} :
    entry ∈ entries rows ↔
      ∃ row, rows[entry.line]? = some row ∧ bodyOf row = entry.mnemonic :: entry.operands := by
  simp only [entries, List.mem_filterMap, List.mem_zipIdx_iff_getElem?, entryOf_eq_some_iff]
  constructor
  · rintro ⟨⟨row, line⟩, row_at, same_line, body⟩
    exact ⟨row, same_line ▸ row_at, body⟩
  · rintro ⟨row, row_at, body⟩
    exact ⟨(row, entry.line), row_at, rfl, body⟩

theorem names_cons (row : List Bytes) (rows : List (List Bytes)) :
    names (row :: rows) = (nameOf row).toList ++ names rows := by
  rw [names, List.filterMap_cons]
  cases nameOf row <;> rfl

theorem names_eq_append {rows : List (List Bytes)} {index : Nat} {row : List Bytes}
    (row_at : rows[index]? = some row) :
    names rows =
      names (rows.take index) ++ ((nameOf row).toList ++ names (rows.drop (index + 1))) := by
  rcases List.getElem?_eq_some_iff.mp row_at with ⟨bound, rfl⟩
  rw [← names_cons, ← List.drop_eq_getElem_cons bound, names, names, names,
    ← List.filterMap_append, List.take_append_drop]

/-- The rows of a well-formed listing have no faults. -/
theorem IsFormed.not_faultAt {rows : List (List Bytes)} (formed : IsFormed (fun _ => True) rows)
    (index : Nat) (fault : Fault) (start stop : Nat) : ¬FaultAt rows index fault start stop := by
  rintro ⟨row, row_at, faulty⟩
  cases faulty with
  | invalidLabel named invalid =>
      have name_mem := List.mem_filterMap.mpr ⟨row, List.mem_of_getElem? row_at, named⟩
      rw [formed.names_formed _ name_mem] at invalid
      cases invalid
  | duplicateLabel named valid twice =>
      have distinct := formed.names_distinct
      rw [names_eq_append row_at, named] at distinct
      exact List.disjoint_of_nodup_append distinct twice (by simp)
  | body label_formed faulty =>
      cases body : bodyOf row with
      | nil =>
          rw [body] at faulty
          cases faulty
      | cons mnemonic operands =>
          rw [body] at faulty
          apply faulty.not_isFormed index
          apply formed.entries_formed
          exact mem_entries_iff.mpr ⟨row, row_at, body⟩

/-- A jump in a well-formed body leads to a name that is defined. -/
theorem JumpsTo.defined {row : List Bytes} {name : Bytes} {position : Nat}
    (jumps : JumpsTo row name position) {entry : Entry} {defined : Bytes → Prop}
    (body : bodyOf row = entry.mnemonic :: entry.operands) (formed : entry.IsFormed defined) :
    defined name := by
  rcases formed with ⟨opcode, same_mnemonic, accepted⟩
  cases jumps with
  | always is_name jump_body =>
      rcases List.cons.inj (jump_body.symm.trans body) with ⟨is_jump, operands_eq⟩
      cases Opcode.mnemonic_injective (same_mnemonic.trans is_jump.symm)
      rw [← operands_eq] at accepted
      rcases accepted with _ | ⟨target_accepted, -⟩
      exact target_accepted.defined is_name
  | unlessPositive is_name jump_body =>
      rcases List.cons.inj (jump_body.symm.trans body) with ⟨is_jump, operands_eq⟩
      cases Opcode.mnemonic_injective (same_mnemonic.trans is_jump.symm)
      rw [← operands_eq] at accepted
      rcases accepted with _ | ⟨-, _ | ⟨target_accepted, -⟩⟩
      exact target_accepted.defined is_name

theorem FaultAt.take {rows : List (List Bytes)} {index count : Nat} {fault : Fault}
    {start stop : Nat} (faulty : FaultAt rows index fault start stop) (above : index < count) :
    FaultAt (rows.take count) index fault start stop := by
  rcases faulty with ⟨row, row_at, faulty⟩
  refine ⟨row, ?_, ?_⟩
  · rw [List.getElem?_take, if_pos above]
    exact row_at
  · rw [List.take_take, Nat.min_eq_left (Nat.le_of_lt above)]
    exact faulty

/-- Two lists have at most one first pair of elements that are not related. -/
theorem first_unrelated_unique {α β : Type} {R : α → β → Prop} {kinds rest : List α}
    {words others : List β} {kind : α} {word : β} (related : List.Forall₂ R kinds words)
    (unrelated : ¬R kind word) {kinds₂ rest₂ : List α} {words₂ others₂ : List β} {kind₂ : α}
    {word₂ : β} (related₂ : List.Forall₂ R kinds₂ words₂) (unrelated₂ : ¬R kind₂ word₂)
    (same_kinds : kinds ++ kind :: rest = kinds₂ ++ kind₂ :: rest₂)
    (same_words : words ++ word :: others = words₂ ++ word₂ :: others₂) :
    words.length = words₂.length ∧ kind = kind₂ ∧ word = word₂ := by
  induction related generalizing kinds₂ words₂ with
  | nil =>
      cases related₂ with
      | nil => exact ⟨rfl, (List.cons.inj same_kinds).1, (List.cons.inj same_words).1⟩
      | cons head_related _ =>
          cases (List.cons.inj same_kinds).1
          cases (List.cons.inj same_words).1
          exact absurd head_related unrelated
  | cons head_related _ ih =>
      cases related₂ with
      | nil =>
          cases (List.cons.inj same_kinds).1
          cases (List.cons.inj same_words).1
          exact absurd head_related unrelated₂
      | cons _ tail_related =>
          rcases ih tail_related (List.cons.inj same_kinds).2 (List.cons.inj same_words).2 with
            ⟨same_length, same_kind, same_word⟩
          exact ⟨congrArg Nat.succ same_length, same_kind, same_word⟩

/-- A body has at most one fault. -/
theorem BodyFault.unique {body other : List Bytes} (same : body = other) {fault fault₂ : Fault}
    {start stop start₂ stop₂ : Nat} (faulty : BodyFault body fault start stop)
    (faulty₂ : BodyFault other fault₂ start₂ stop₂) :
    fault = fault₂ ∧ start = start₂ ∧ stop = stop₂ := by
  cases faulty with
  | unknownMnemonic unknown =>
      cases faulty₂ with
      | unknownMnemonic =>
          cases same
          exact ⟨rfl, rfl, rfl⟩
      | operandCount => exact absurd (List.cons.inj same).1.symm (unknown _)
      | malformed => exact absurd (List.cons.inj same).1.symm (unknown _)
  | operandCount differs =>
      cases faulty₂ with
      | unknownMnemonic unknown => exact absurd (List.cons.inj same).1 (unknown _)
      | operandCount =>
          cases Opcode.mnemonic_injective (List.cons.inj same).1
          cases (List.cons.inj same).2
          exact ⟨rfl, rfl, rfl⟩
      | malformed complete =>
          cases Opcode.mnemonic_injective (List.cons.inj same).1
          cases (List.cons.inj same).2
          exact absurd complete differs
  | malformed complete shape accepted refused =>
      cases faulty₂ with
      | unknownMnemonic unknown => exact absurd (List.cons.inj same).1 (unknown _)
      | operandCount differs =>
          cases Opcode.mnemonic_injective (List.cons.inj same).1
          cases (List.cons.inj same).2
          exact absurd complete differs
      | malformed complete₂ shape₂ accepted₂ refused₂ =>
          cases Opcode.mnemonic_injective (List.cons.inj same).1
          rcases first_unrelated_unique accepted refused accepted₂ refused₂
            (shape.symm.trans shape₂) (List.cons.inj same).2 with
            ⟨same_length, rfl, rfl⟩
          rw [same_length]
          exact ⟨rfl, rfl, rfl⟩

theorem RowFault.unique {defined row : List Bytes} {fault fault₂ : Fault}
    {start stop start₂ stop₂ : Nat} (faulty : RowFault defined row fault start stop)
    (faulty₂ : RowFault defined row fault₂ start₂ stop₂) :
    fault = fault₂ ∧ start = start₂ ∧ stop = stop₂ := by
  cases faulty with
  | invalidLabel named invalid =>
      cases faulty₂ with
      | invalidLabel named₂ =>
          cases named.symm.trans named₂
          exact ⟨rfl, rfl, rfl⟩
      | duplicateLabel named₂ valid =>
          cases named.symm.trans named₂
          cases invalid.symm.trans valid
      | body label_formed => cases invalid.symm.trans (label_formed _ named).1
  | duplicateLabel named valid twice =>
      cases faulty₂ with
      | invalidLabel named₂ invalid =>
          cases named.symm.trans named₂
          cases invalid.symm.trans valid
      | duplicateLabel named₂ =>
          cases named.symm.trans named₂
          exact ⟨rfl, rfl, rfl⟩
      | body label_formed => exact absurd twice (label_formed _ named).2
  | body label_formed faulty =>
      cases faulty₂ with
      | invalidLabel named invalid => cases invalid.symm.trans (label_formed _ named).1
      | duplicateLabel named _ twice => exact absurd twice (label_formed _ named).2
      | body _ faulty₂ =>
          rcases faulty.unique rfl faulty₂ with ⟨same_fault, rfl, rfl⟩
          exact ⟨same_fault, rfl, rfl⟩

theorem JumpsTo.unique {row : List Bytes} {name name₂ : Bytes} {position position₂ : Nat}
    (jumps : JumpsTo row name position) (jumps₂ : JumpsTo row name₂ position₂) :
    name = name₂ ∧ position = position₂ := by
  cases jumps with
  | always _ body =>
      cases jumps₂ with
      | always _ body₂ =>
          cases body.symm.trans body₂
          exact ⟨rfl, rfl⟩
      | unlessPositive _ body₂ => cases body.symm.trans body₂
  | unlessPositive _ body =>
      cases jumps₂ with
      | always _ body₂ => cases body.symm.trans body₂
      | unlessPositive _ body₂ =>
          cases body.symm.trans body₂
          exact ⟨rfl, rfl⟩

/-- There is at most one fault to report. -/
theorem Reported.unique {rows : List (List Bytes)} {index index₂ : Nat} {fault fault₂ : Fault}
    {start stop start₂ stop₂ : Nat} (reported : Reported rows index fault start stop)
    (reported₂ : Reported rows index₂ fault₂ start₂ stop₂) :
    index = index₂ ∧ fault = fault₂ ∧ start = start₂ ∧ stop = stop₂ := by
  cases reported with
  | row faulty first =>
      cases reported₂ with
      | row faulty₂ first₂ =>
          rcases Nat.lt_trichotomy index index₂ with before | rfl | behind
          · exact absurd faulty (first₂ _ before _ _ _)
          · rcases faulty with ⟨row, row_at, faulty⟩
            rcases faulty₂ with ⟨row₂, row_at₂, faulty₂⟩
            cases row_at.symm.trans row_at₂
            exact ⟨rfl, faulty.unique faulty₂⟩
          · exact absurd faulty₂ (first _ behind _ _ _)
      | label _ _ _ no_faults => exact absurd faulty (no_faults _ _ _ _)
  | label row_at jumps undefined no_faults first =>
      cases reported₂ with
      | row faulty₂ => exact absurd faulty₂ (no_faults _ _ _ _)
      | label row_at₂ jumps₂ undefined₂ _ first₂ =>
          rcases Nat.lt_trichotomy index index₂ with before | rfl | behind
          · exact absurd (first₂ _ before _ _ _ row_at jumps) undefined
          · cases row_at.symm.trans row_at₂
            rcases jumps.unique jumps₂ with ⟨rfl, rfl⟩
            exact ⟨rfl, rfl, rfl, rfl⟩
          · exact absurd (first _ behind _ _ _ row_at₂ jumps₂) undefined₂

end Listing

namespace Listing

theorem Marks.excerpt_eq {line word : Bytes} {position first last : Nat}
    (marks : Marks line position position first last)
    (word_at : (words line)[position]? = some word) : excerpt line first last = word :=
  Option.some.inj ((marks.single rfl).symm.trans word_at)

end Listing

end SpanMachine
