import Mathlib.Data.List.Nodup
import SpanMachine.Proofs.Listing.Statements

/-!
# What reading a listing accepts, and what it builds

Reading goes line by line and keeps a draft. The invariant is that the draft covers
the rows read so far: it has a statement for each body among them, with the operands
as the words of the body say, and a label for each name, in its place. A line can be
added to such a draft exactly if the rows are still well formed with its row.

Looking up the names at the end adds the one condition that depends on rows further
down, namely that a jump leads to a name defined somewhere.
-/

namespace SpanMachine

namespace Listing

theorem exists_mem_right {α β : Type} {R : α → β → Prop} {first : List α} {second : List β}
    (related : List.Forall₂ R first second) {element : α} (element_mem : element ∈ first) :
    ∃ other ∈ second, R element other := by
  induction related with
  | nil => cases element_mem
  | cons head_related _ ih =>
      rcases List.mem_cons.mp element_mem with rfl | element_mem
      · exact ⟨_, List.mem_cons_self, head_related⟩
      · rcases ih element_mem with ⟨other, other_mem, other_related⟩
        exact ⟨other, List.mem_cons_of_mem _ other_mem, other_related⟩

theorem forall₂_trans {α β γ : Type} {R : α → β → Prop} {S : β → γ → Prop} {T : α → γ → Prop}
    {first : List α} {second : List β} {third : List γ} (left : List.Forall₂ R first second)
    (right : List.Forall₂ S second third)
    (compose : ∀ a ∈ first, ∀ b c, R a b → S b c → T a c) : List.Forall₂ T first third := by
  induction left generalizing third with
  | nil =>
      cases right
      exact List.Forall₂.nil
  | cons left_head _ ih =>
      rcases right with _ | ⟨right_head, right⟩
      rw [List.forall_mem_cons] at compose
      exact List.Forall₂.cons (compose.1 _ _ left_head right_head) (ih right compose.2)

theorem forall₂_of_mapM {α β ε : Type} {f : α → Except ε β} {list : List α} {results : List β}
    (mapped : list.mapM f = .ok results) :
    List.Forall₂ (fun element result => f element = .ok result) list results := by
  induction list generalizing results with
  | nil =>
      cases mapped
      exact List.Forall₂.nil
  | cons element list ih =>
      rw [List.mapM_cons, bind_eq_ok_iff] at mapped
      rcases mapped with ⟨result, first, mapped⟩
      rw [bind_eq_ok_iff] at mapped
      rcases mapped with ⟨others, rest, returned⟩
      cases returned
      exact List.Forall₂.cons first (ih rest)

theorem exists_mapM {α β ε : Type} {f : α → Except ε β} {list : List α}
    (each : ∀ element ∈ list, ∃ result, f element = .ok result) :
    ∃ results, list.mapM f = .ok results := by
  induction list with
  | nil => exact ⟨[], rfl⟩
  | cons element list ih =>
      rw [List.forall_mem_cons] at each
      rcases each.1 with ⟨result, first⟩
      rcases ih each.2 with ⟨others, rest⟩
      refine ⟨result :: others, ?_⟩
      rw [List.mapM_cons, first, rest]
      rfl

theorem States.unique {rows : List (List Bytes)} {first second : Instruction} {operand : Operand}
    {word : Bytes} (first_states : States rows first operand word)
    (second_states : States rows second operand word) :
    first.operand operand = second.operand operand := by
  rw [← UInt64.toNat_inj]
  cases operand with
  | span | magnitude | target => exact Eq.trans first_states (Eq.symm second_states)

/-- A body does not state two instructions. -/
theorem Denotes.unique {rows : List (List Bytes)} {entry : Entry} {first second : Instruction}
    (first_denoted : Denotes rows entry first) (second_denoted : Denotes rows entry second) :
    first = second := by
  have same_opcode : first.opcode = second.opcode :=
    Opcode.mnemonic_injective (first_denoted.mnemonic.trans second_denoted.mnemonic.symm)
  have same_origin : first.origin = second.origin :=
    first_denoted.origin.trans second_denoted.origin.symm
  have same_operand : ∀ operand ∈ first.opcode.operands,
      first.operand operand = second.operand operand := by
    have second_operands := second_denoted.operands
    rw [← same_opcode] at second_operands
    have stated : List.Forall₂
        (fun operand other =>
          ∃ word, States rows first operand word ∧ States rows second other word)
        first.opcode.operands first.opcode.operands :=
      forall₂_trans first_denoted.operands second_operands.flip
        fun _ _ word _ first_states second_states => ⟨word, first_states, second_states⟩
    intro operand operand_mem
    rcases List.forall₂_same.mp stated operand operand_mem with ⟨word, first_states, second_states⟩
    exact first_states.unique second_states
  have same_span : first.span = second.span := by
    by_cases span_mem : .span ∈ first.opcode.operands
    · exact same_operand .span span_mem
    · rw [first_denoted.span_zero span_mem, second_denoted.span_zero (same_opcode ▸ span_mem)]
  have same_magnitude : first.magnitude = second.magnitude := by
    by_cases magnitude_mem : .magnitude ∈ first.opcode.operands
    · exact same_operand .magnitude magnitude_mem
    · by_cases target_mem : .target ∈ first.opcode.operands
      · exact same_operand .target target_mem
      · rw [first_denoted.magnitude_zero magnitude_mem target_mem,
          second_denoted.magnitude_zero (same_opcode ▸ magnitude_mem) (same_opcode ▸ target_mem)]
  cases first
  cases second
  simp_all

theorem DenotesProgram.unique {rows : List (List Bytes)} {first second : Program}
    (first_denoted : DenotesProgram rows first) (second_denoted : DenotesProgram rows second) :
    first = second := by
  have unique : Relator.RightUnique (Denotes rows) := by
    intro entry one other one_denoted other_denoted
    exact one_denoted.unique other_denoted
  have same_code : first.code = second.code :=
    List.right_unique_forall₂' unique first_denoted.items second_denoted.items
  have same_labels : first.labels = second.labels :=
    (Outlines.labels_eq first_denoted).trans (Outlines.labels_eq second_denoted).symm
  cases first
  cases second
  simp_all

/-- Names that are used as targets stand for places that fit into a word. -/
def SmallPlaces (rows : List (List Bytes)) : Prop :=
  ∀ entry ∈ entries rows, ∀ word ∈ entry.operands, isLabelName word = true →
    place rows word < UInt64.size

end Listing

namespace Draft

open Listing

/-- The tokens of a row after its label. -/
def bodyTokens : List Token → List Token
  | [] => []
  | head :: rest => if head.text.getLast? = some Byte.colon then rest else head :: rest

theorem map_text_bodyTokens (tokens : List Token) :
    (bodyTokens tokens).map Token.text = bodyOf (tokens.map Token.text) := by
  cases tokens with
  | nil => rfl
  | cons head rest =>
      simp only [bodyTokens, List.map_cons, bodyOf]
      split <;> rfl

/-- The draft with the label of a row added to it. -/
def withName (draft : Draft) (name : Option Bytes) : Draft :=
  { draft with labels := draft.labels ++ (name.map (Label.mk draft.statements.length)).toList }

theorem addLabel_eq_ok_iff {draft result : Draft} {line : Nat} {token : Token} :
    draft.addLabel line token = .ok result ↔
      isLabelName token.text.dropLast = true ∧
        token.text.dropLast ∉ draft.labels.map Label.name ∧
        result = draft.withName (some token.text.dropLast) := by
  have defined_iff : (draft.labels.any fun label => label.name == token.text.dropLast) = true ↔
      token.text.dropLast ∈ draft.labels.map Label.name := by
    simp
  simp only [addLabel, withName, defined_iff]
  split
  · rename_i not_name
    simp only [Bool.not_eq_true', reduceCtorEq, false_iff] at not_name ⊢
    simp [not_name]
  · rename_i is_name
    simp only [Bool.not_eq_true', Bool.not_eq_false] at is_name
    split
    · rename_i defined
      simp [defined]
    · rename_i fresh
      simp [is_name, fresh, eq_comm]

/-- A line is read by its label first and then by its body. -/
theorem addLine_eq_ok_iff {draft result : Draft} {line : Nat} {tokens : List Token} :
    draft.addLine line tokens = .ok result ↔
      (∀ name, nameOf (tokens.map Token.text) = some name →
        isLabelName name = true ∧ name ∉ draft.labels.map Label.name) ∧
      (draft.withName (nameOf (tokens.map Token.text))).addStatement line (bodyTokens tokens) =
        .ok result := by
  cases tokens with
  | nil => simp [addLine, nameOf, bodyTokens, withName, addStatement]
  | cons head rest =>
      simp only [addLine, List.map_cons, nameOf, bodyTokens]
      split
      · rw [bind_eq_ok_iff]
        simp only [addLabel_eq_ok_iff, Option.some.injEq, forall_eq']
        constructor
        · rintro ⟨_, ⟨is_name, fresh, rfl⟩, stated⟩
          exact ⟨⟨is_name, fresh⟩, stated⟩
        · rintro ⟨⟨is_name, fresh⟩, stated⟩
          exact ⟨_, ⟨is_name, fresh, rfl⟩, stated⟩
      · simp [withName]

theorem addStatement_eq_ok {draft result : Draft} {line : Nat} {tokens : List Token}
    (added : draft.addStatement line (bodyTokens tokens) = .ok result) :
    ∃ more : List Statement,
      result = { draft with statements := draft.statements ++ more } ∧
      List.Forall₂ Statement.Spells (entryOf (tokens.map Token.text) line).toList more := by
  rw [entryOf, ← map_text_bodyTokens]
  cases body : bodyTokens tokens with
  | nil =>
      rw [body, addStatement, Except.ok.injEq] at added
      subst added
      exact ⟨[], by simp, List.Forall₂.nil⟩
  | cons head arguments =>
      rw [body, addStatement, bind_eq_ok_iff] at added
      rcases added with ⟨statement, read, returned⟩
      cases returned
      refine ⟨[statement], rfl, ?_⟩
      exact List.Forall₂.cons (Statement.spells_of_ofTokens read) List.Forall₂.nil

theorem exists_addStatement (draft : Draft) {line : Nat} {tokens : List Token}
    (formed : ∀ entry ∈ entryOf (tokens.map Token.text) line, entry.IsFormed fun _ => True) :
    ∃ result, draft.addStatement line (bodyTokens tokens) = .ok result := by
  rw [entryOf, ← map_text_bodyTokens] at formed
  cases body : bodyTokens tokens with
  | nil => exact ⟨draft, rfl⟩
  | cons head arguments =>
      rw [body] at formed
      rcases Statement.exists_ofTokens line (formed _ rfl) with ⟨statement, read⟩
      exact ⟨_, bind_eq_ok_iff.mpr ⟨statement, read, rfl⟩⟩

/-- The draft says what the given rows say, and their names are in order. -/
structure Covers (rows : List (List Bytes)) (draft : Draft) : Prop where
  outlines : Outlines Statement.Spells rows draft.statements draft.labels
  names_formed : ∀ name ∈ names rows, isLabelName name = true
  names_distinct : (names rows).Nodup

theorem covers_nil : Covers [] {} := by
  refine ⟨⟨List.Forall₂.nil, rfl, ?_⟩, ?_, List.nodup_nil⟩
  · intro label label_mem
    cases label_mem
  · intro name name_mem
    cases name_mem

/-- Reading a line keeps the draft abreast of the rows. -/
theorem Covers.addLine {rows : List (List Bytes)} {draft result : Draft} {tokens : List Token}
    (covers : Covers rows draft) (added : draft.addLine rows.length tokens = .ok result) :
    Covers (rows ++ [tokens.map Token.text]) result := by
  rcases addLine_eq_ok_iff.mp added with ⟨named, stated⟩
  rcases addStatement_eq_ok stated with ⟨more, rfl, spells⟩
  rw [covers.outlines.label_names] at named
  constructor
  · exact covers.outlines.append (fun name named_row => (named name named_row).2) spells
  · intro name name_mem
    rw [names_append_singleton, List.mem_append, Option.mem_toList] at name_mem
    rcases name_mem with name_mem | named_row
    · exact covers.names_formed name name_mem
    · exact (named name named_row).1
  · rw [names_append_singleton, List.nodup_append]
    refine ⟨covers.names_distinct, ?_, ?_⟩
    · cases nameOf (tokens.map Token.text) <;> simp
    · rintro name old_mem _ new_mem rfl
      exact (named name (Option.mem_toList.mp new_mem)).2 old_mem

theorem Covers.exists_addLine {rows : List (List Bytes)} {draft : Draft} {tokens : List Token}
    (covers : Covers rows draft)
    (formed : IsFormed (fun _ => True) (rows ++ [tokens.map Token.text])) :
    ∃ result, draft.addLine rows.length tokens = .ok result := by
  rcases formed with ⟨entries_formed, names_formed, names_distinct⟩
  rw [entries_append_singleton] at entries_formed
  rw [names_append_singleton] at names_formed names_distinct
  have named : ∀ name, nameOf (tokens.map Token.text) = some name →
      isLabelName name = true ∧ name ∉ draft.labels.map Label.name := by
    intro name named
    rw [named] at names_formed names_distinct
    rw [covers.outlines.label_names]
    constructor
    · exact names_formed name (by simp)
    · intro defined
      exact List.disjoint_of_nodup_append names_distinct defined (by simp)
  have stated : ∀ entry ∈ entryOf (tokens.map Token.text) rows.length,
      entry.IsFormed fun _ => True := by
    intro entry entry_mem
    exact entries_formed entry (List.mem_append_right _ (Option.mem_toList.mpr entry_mem))
  rcases exists_addStatement (draft.withName (nameOf (tokens.map Token.text))) stated with
    ⟨result, added⟩
  exact ⟨result, addLine_eq_ok_iff.mpr ⟨named, added⟩⟩

/-- Reading all lines keeps the draft abreast of the rows. -/
theorem Covers.addLines {rows : List (List Bytes)} {draft result : Draft} {texts : List Bytes}
    (covers : Covers rows draft) (added : draft.addLines rows.length texts = .ok result) :
    Covers (rows ++ texts.map words) result := by
  induction texts generalizing rows draft with
  | nil =>
      rw [Draft.addLines, Except.ok.injEq] at added
      subst added
      simpa using covers
  | cons text texts ih =>
      rw [Draft.addLines, bind_eq_ok_iff] at added
      rcases added with ⟨next, first, rest⟩
      have covers_next := covers.addLine first
      rw [map_text_tokens] at covers_next
      have covers_rest := ih covers_next (by simpa using rest)
      simpa using covers_rest

theorem Covers.exists_addLines {rows : List (List Bytes)} {draft : Draft} {texts : List Bytes}
    (covers : Covers rows draft)
    (formed : IsFormed (fun _ => True) (rows ++ texts.map words)) :
    ∃ result, draft.addLines rows.length texts = .ok result := by
  induction texts generalizing rows draft with
  | nil => exact ⟨draft, rfl⟩
  | cons text texts ih =>
      rw [List.map_cons, List.append_cons] at formed
      have formed_first := formed.of_append
      rw [← map_text_tokens] at formed_first
      rcases covers.exists_addLine formed_first with ⟨next, first⟩
      have covers_next := covers.addLine first
      rw [map_text_tokens] at covers_next
      rcases ih covers_next formed with ⟨result, rest⟩
      rw [List.length_append] at rest
      exact ⟨result, bind_eq_ok_iff.mpr ⟨next, first, rest⟩⟩

theorem toProgram_eq_ok {draft : Draft} {program : Program}
    (resolved : draft.toProgram = .ok program) :
    program.labels = draft.labels ∧
      List.Forall₂ (fun statement instruction =>
        Statement.resolve draft.labels statement = .ok instruction)
        draft.statements program.code := by
  rw [toProgram, bind_eq_ok_iff] at resolved
  rcases resolved with ⟨code, mapped, returned⟩
  cases returned
  exact ⟨rfl, forall₂_of_mapM mapped⟩

/-- Looking the labels up succeeds if all jumps lead to names that are defined. -/
theorem Covers.exists_toProgram {rows : List (List Bytes)} {draft : Draft}
    (covers : Covers rows draft) (grammatical : Grammatical rows) :
    ∃ program, draft.toProgram = .ok program := by
  have each : ∀ statement ∈ draft.statements,
      ∃ instruction, Statement.resolve draft.labels statement = .ok instruction := by
    intro statement statement_mem
    rcases exists_mem_right covers.outlines.items.flip statement_mem with ⟨entry, entry_mem, spells⟩
    apply Statement.exists_resolve
    rw [covers.outlines.label_names]
    exact spells.isFormed_iff.mp (grammatical.entries_formed entry entry_mem)
  rcases exists_mapM each with ⟨code, mapped⟩
  exact ⟨⟨code, draft.labels⟩, bind_eq_ok_iff.mpr ⟨code, mapped, rfl⟩⟩

theorem Covers.grammatical {rows : List (List Bytes)} {draft : Draft} {program : Program}
    (covers : Covers rows draft) (resolved : draft.toProgram = .ok program) :
    Grammatical rows := by
  refine ⟨?_, covers.names_formed, covers.names_distinct⟩
  intro entry entry_mem
  rcases exists_mem_right covers.outlines.items entry_mem with ⟨statement, statement_mem, spells⟩
  rcases exists_mem_right (toProgram_eq_ok resolved).2 statement_mem with
    ⟨instruction, -, statement_resolved⟩
  rw [spells.isFormed_iff]
  intro token refers
  rw [← covers.outlines.label_names]
  exact Statement.mem_names_of_resolve statement_resolved refers

theorem Covers.denotesProgram {rows : List (List Bytes)} {draft : Draft} {program : Program}
    (covers : Covers rows draft) (small : SmallPlaces rows)
    (resolved : draft.toProgram = .ok program) : DenotesProgram rows program := by
  rcases toProgram_eq_ok resolved with ⟨same_labels, code⟩
  constructor
  · apply forall₂_trans covers.outlines.items code
    intro entry entry_mem statement instruction spells statement_resolved
    exact spells.denotes_of_resolve covers.outlines.label_places (small entry entry_mem)
      statement_resolved
  · rw [same_labels, covers.outlines.label_names]
  · rw [same_labels]
    exact covers.outlines.label_places

end Draft

namespace Program

open Listing

theorem ofListing_eq_ok_iff {text : Bytes} {program : Program} :
    ofListing text = .ok program ↔
      ∃ draft, Draft.addLines {} 0 (lines text) = .ok draft ∧ draft.toProgram = .ok program :=
  bind_eq_ok_iff

theorem exists_ofListing_iff (text : Bytes) :
    (∃ program, ofListing text = .ok program) ↔ Grammatical (rows text) := by
  have lines_iff :
      (∃ program, ofListing text = .ok program) ↔ Grammatical ((lines text).map words) := by
    constructor
    · rintro ⟨program, read⟩
      rcases ofListing_eq_ok_iff.mp read with ⟨draft, added, resolved⟩
      have covers := Draft.covers_nil.addLines added
      exact covers.grammatical resolved
    · intro grammatical
      have formed : IsFormed (fun _ => True) ([] ++ (lines text).map words) :=
        grammatical.mono fun _ _ => trivial
      rcases Draft.covers_nil.exists_addLines formed with ⟨draft, added⟩
      rcases (Draft.covers_nil.addLines added).exists_toProgram grammatical with
        ⟨program, resolved⟩
      exact ⟨program, ofListing_eq_ok_iff.mpr ⟨draft, added, resolved⟩⟩
  rw [lines_iff]
  rcases rows_eq_or_append_blank text with same | blank
  · rw [same]
  · rw [blank, grammatical_append_blank]

theorem denotesProgram_of_ofListing {text : Bytes} {program : Program}
    (small : SmallPlaces (rows text)) (read : ofListing text = .ok program) :
    DenotesProgram (rows text) program := by
  rcases ofListing_eq_ok_iff.mp read with ⟨draft, added, resolved⟩
  have covers : Draft.Covers ((lines text).map words) draft := Draft.covers_nil.addLines added
  rcases rows_eq_or_append_blank text with same | blank
  · rw [same] at small ⊢
    exact covers.denotesProgram small resolved
  · rw [blank] at small ⊢
    rw [denotesProgram_append_blank]
    apply covers.denotesProgram _ resolved
    simpa only [SmallPlaces, entries_append_blank, place_append_blank] using small

theorem smallPlaces_of_length_lines {text : Bytes} (short : (lines text).length < 0x80000000) :
    SmallPlaces (rows text) := by
  have row_count : (rows text).length ≤ (lines text).length + 1 := by
    rcases rows_eq_or_append_blank text with same | blank
    · simp [same]
    · simp [blank]
  intro entry entry_mem word word_mem is_name
  have above := Nat.le_trans (place_le (rows text) word) (length_entries_le (rows text))
  have word_size : UInt64.size = 0x10000000000000000 := rfl
  omega

/--
A text is read exactly if it is a listing, and then it is read as the one program that it
denotes.
-/
theorem ofListing_iff_denotes (text : Bytes) (short : (lines text).length < 0x80000000) :
    ((∃ program, ofListing text = .ok program) ↔ Grammatical (rows text)) ∧
      ∀ program, ofListing text = .ok program ↔
        Grammatical (rows text) ∧ DenotesProgram (rows text) program := by
  have small := smallPlaces_of_length_lines short
  refine ⟨exists_ofListing_iff text, ?_⟩
  intro program
  constructor
  · intro read
    exact ⟨(exists_ofListing_iff text).mp ⟨program, read⟩, denotesProgram_of_ofListing small read⟩
  · rintro ⟨grammatical, denoted⟩
    rcases (exists_ofListing_iff text).mpr grammatical with ⟨other, read⟩
    rw [denoted.unique (denotesProgram_of_ofListing small read)]
    exact read

theorem ofListing_iff_denotes_forward_jump :
    (lines (ascii "top: jle 2 end;up\r\n\tjmp 007\n\nend:")).length < 0x80000000 ∧
      DenotesProgram (rows (ascii "top: jle 2 end;up\r\n\tjmp 007\n\nend:"))
        ⟨[⟨.jumpUnlessPositive, 2, 2, 1⟩, ⟨.jump, 0, 7, 2⟩],
          [⟨0, ascii "top"⟩, ⟨2, ascii "end"⟩]⟩ :=
  ⟨by decide +kernel, (((ofListing_iff_denotes _ (by decide +kernel)).2 _).mp
    (by decide +kernel)).2⟩

end Program

end SpanMachine
