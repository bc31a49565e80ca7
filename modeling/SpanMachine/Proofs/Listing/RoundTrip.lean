import SpanMachine.Proofs.Listing.Printing
import SpanMachine.Proofs.Listing.Reading
import SpanMachine.Proofs.Program.Built

/-!
# Printed listings can be read back

Printing and building go hand in hand: whatever is appended to a program is appended
to the rows of its listing. So by induction on how a program was built, its rows
outline it, with the instructions as items. Reading the rows then gives the
instructions again, except for operands that are not printed, which become zero, and
for origins, which become the numbers of the printed lines.

All jumps are printed with numerals, so that the labels of a listing play no part in
reading its instructions.
-/

namespace SpanMachine

/-- The body that an instruction is printed as. -/
def Instruction.entry (instruction : Instruction) (line : Nat) : Listing.Entry where
  line := line
  mnemonic := instruction.opcode.mnemonic
  operands := instruction.opcode.operands.map fun operand =>
    Decimal.ofNat (instruction.operand operand).toNat

namespace Listing

/-- The words of a body are those that are printed for an instruction. -/
def Prints (entry : Entry) (instruction : Instruction) : Prop :=
  entry.mnemonic :: entry.operands = instruction.row

theorem getLast?_mnemonic (opcode : Opcode) : opcode.mnemonic.getLast? ≠ some Byte.colon := by
  intro last
  exact absurd (Opcode.isLetter_of_mem_mnemonic (List.mem_of_getLast? last)) (by decide)

theorem nameOf_row (instruction : Instruction) : nameOf instruction.row = none := by
  rw [Instruction.row, nameOf, if_neg (getLast?_mnemonic _)]

theorem entryOf_row (instruction : Instruction) (line : Nat) :
    entryOf instruction.row line = some (instruction.entry line) := by
  have body : bodyOf instruction.row = instruction.row := by
    rw [Instruction.row, bodyOf, if_neg (getLast?_mnemonic _)]
  rw [entryOf, body]
  rfl

theorem nameOf_labelRow (name : Bytes) : nameOf (labelRow name) = some name := by
  simp [labelRow, nameOf]

theorem entryOf_labelRow (name : Bytes) (line : Nat) : entryOf (labelRow name) line = none := by
  simp [labelRow, entryOf, bodyOf]

theorem forall₂_prints_iff {entries : List Entry} {code : List Instruction} :
    List.Forall₂ Prints entries code ↔
      entries.map (fun entry => entry.mnemonic :: entry.operands) = code.map Instruction.row := by
  rw [← List.forall₂_eq_eq_eq, List.forall₂_map_left_iff, List.forall₂_map_right_iff]
  rfl

theorem Outlines.append_row {rows : List (List Bytes)} {code : List Instruction}
    {labels : List Label} (outlines : Outlines Prints rows code labels)
    (instruction : Instruction) :
    Outlines Prints (rows ++ [instruction.row]) (code ++ [instruction]) labels := by
  have fresh : ∀ name, nameOf instruction.row = some name → name ∉ names rows := by
    intro name named
    rw [nameOf_row] at named
    cases named
  have related :
      List.Forall₂ Prints (entryOf instruction.row rows.length).toList [instruction] := by
    rw [entryOf_row]
    exact List.Forall₂.cons rfl List.Forall₂.nil
  have appended := outlines.append fresh related
  rw [nameOf_row] at appended
  simpa using appended

theorem Outlines.append_labelRow {rows : List (List Bytes)} {code : List Instruction}
    {labels : List Label} (outlines : Outlines Prints rows code labels) {name : Bytes}
    (fresh : name ∉ labels.map Label.name) :
    Outlines Prints (rows ++ [labelRow name]) code (labels ++ [⟨code.length, name⟩]) := by
  have still_fresh : ∀ other, nameOf (labelRow name) = some other → other ∉ names rows := by
    intro other named
    rw [nameOf_labelRow, Option.some.injEq] at named
    rw [← named, ← outlines.label_names]
    exact fresh
  have related : List.Forall₂ Prints (entryOf (labelRow name) rows.length).toList [] := by
    rw [entryOf_labelRow]
    exact List.Forall₂.nil
  have appended := outlines.append still_fresh related
  rw [nameOf_labelRow] at appended
  simpa using appended

theorem isWord_ofNat (word : UInt64) : IsWord (Decimal.ofNat word.toNat) := by
  refine ⟨Decimal.isNumeral_ofNat word.toNat, ?_⟩
  rw [Decimal.value_ofNat]
  exact word.toNat_lt

theorem isLabelName_ofNat (word : UInt64) : isLabelName (Decimal.ofNat word.toNat) = false := by
  rw [← Bool.not_eq_true]
  intro is_name
  exact not_isWord_of_isLabelName is_name (isWord_ofNat word)

theorem Prints.isFormed {entry : Entry} {instruction : Instruction}
    (prints : Prints entry instruction) (defined : Bytes → Prop) : entry.IsFormed defined := by
  rcases List.cons.inj prints with ⟨mnemonic, operands⟩
  refine ⟨instruction.opcode, mnemonic.symm, ?_⟩
  rw [operands, List.forall₂_map_right_iff, List.forall₂_same]
  intro operand _
  have is_word := isWord_ofNat (instruction.operand operand)
  cases operand with
  | span | magnitude => exact is_word
  | target => exact Or.inl is_word

theorem Outlines.grammatical {rows : List (List Bytes)} {program : Program}
    (outlines : Outlines Prints rows program.code program.labels)
    (names_formed : ∀ label ∈ program.labels, isLabelName label.name = true)
    (distinct : (program.labels.map Label.name).Nodup) : Grammatical rows := by
  constructor
  · intro entry entry_mem
    rcases exists_mem_right outlines.items entry_mem with ⟨instruction, -, prints⟩
    exact prints.isFormed _
  · rw [← outlines.label_names, List.forall_mem_map]
    exact names_formed
  · rw [← outlines.label_names]
    exact distinct

/-- No name is used as a target. -/
theorem Outlines.smallPlaces {rows : List (List Bytes)} {program : Program}
    (outlines : Outlines Prints rows program.code program.labels) : SmallPlaces rows := by
  intro entry entry_mem word word_mem is_name
  rcases exists_mem_right outlines.items entry_mem with ⟨instruction, -, prints⟩
  rw [(List.cons.inj prints).2, List.mem_map] at word_mem
  rcases word_mem with ⟨operand, -, rfl⟩
  rw [isLabelName_ofNat] at is_name
  cases is_name

end Listing

namespace Instruction

open Listing

/-- What is left of an instruction when it is printed and read. -/
structure Reread (printed read : Instruction) : Prop where
  opcode : read.opcode = printed.opcode
  span : read.span = if .span ∈ printed.opcode.operands then printed.span else 0
  magnitude : read.magnitude =
    if .magnitude ∈ printed.opcode.operands ∨ .target ∈ printed.opcode.operands then
      printed.magnitude
    else
      0

theorem Reread.of_denotes {rows : List (List Bytes)} {entry : Entry} {printed read : Instruction}
    (prints : Prints entry printed) (denotes : Denotes rows entry read) : Reread printed read := by
  rcases List.cons.inj prints with ⟨mnemonic, operands⟩
  have same_opcode : read.opcode = printed.opcode :=
    Opcode.mnemonic_injective (denotes.mnemonic.trans mnemonic)
  have same_operand : ∀ operand ∈ printed.opcode.operands,
      read.operand operand = printed.operand operand := by
    have stated := denotes.operands
    rw [same_opcode, operands, List.forall₂_map_right_iff, List.forall₂_same] at stated
    intro operand operand_mem
    have states := stated operand operand_mem
    rw [← UInt64.toNat_inj]
    cases operand with
    | span | magnitude => simpa [States, Instruction.operand] using states
    | target => simpa [States, isLabelName_ofNat, Instruction.operand] using states
  constructor
  · exact same_opcode
  · split
    · rename_i span_mem
      exact same_operand .span span_mem
    · rename_i no_span
      exact denotes.span_zero (same_opcode ▸ no_span)
  · split
    · rename_i spelled
      rcases spelled with magnitude_mem | target_mem
      · exact same_operand .magnitude magnitude_mem
      · exact same_operand .target target_mem
    · rename_i unspelled
      rw [not_or, ← same_opcode] at unspelled
      exact denotes.magnitude_zero unspelled.1 unspelled.2

/-- Two instructions agree in every field but the origin. -/
def SameButOrigin (first second : Instruction) : Prop :=
  { second with origin := first.origin } = first

theorem Reread.sameButOrigin {printed read : Instruction} (reread : Reread printed read)
    (spelled : printed.IsSpelled) : SameButOrigin printed read := by
  have same_span : read.span = printed.span := by
    rw [reread.span]
    split
    · rfl
    · rename_i no_span
      exact (spelled.1 no_span).symm
  have same_magnitude : read.magnitude = printed.magnitude := by
    rw [reread.magnitude]
    split
    · rfl
    · rename_i unspelled
      rw [not_or] at unspelled
      exact (spelled.2 unspelled.1 unspelled.2).symm
  rw [SameButOrigin, reread.opcode, same_span, same_magnitude]

end Instruction

namespace Program

open Listing

/-- All rows of the printed program. -/
def printedRows (program : Program) : List (List Bytes) :=
  program.rowsFrom 0 program.code

theorem rows_toListing {program : Program}
    (names_formed : ∀ label ∈ program.labels, isLabelName label.name = true) :
    rows program.toListing = program.printedRows ++ [[]] :=
  rows_linesFrom names_formed 0 0 program.code

/-- The rows depend on the labels and on what is printed of the instructions. -/
theorem rowsFrom_congr {first second : Program} (same_labels : first.labels = second.labels)
    {code other : List Instruction}
    (same_rows : code.map Instruction.row = other.map Instruction.row) (index : Nat) :
    first.rowsFrom index code = second.rowsFrom index other := by
  have same_names : first.namesAt = second.namesAt := by
    funext index
    rw [namesAt, same_labels, namesAt]
  induction code generalizing other index with
  | nil =>
      rw [List.map_nil, eq_comm, List.map_eq_nil_iff] at same_rows
      rw [same_rows, rowsFrom, rowsFrom, same_names]
  | cons instruction code ih =>
      cases other with
      | nil => cases same_rows
      | cons another other =>
          rcases List.cons.inj same_rows with ⟨same_row, same_rows⟩
          rw [rowsFrom, rowsFrom, same_names, same_row, ih same_rows]

theorem rowsFrom_append (program : Program) (index : Nat) (code : List Instruction)
    (last : Instruction) :
    program.rowsFrom index (code ++ [last]) = program.rowsFrom index code ++
      last.row :: (program.namesAt (index + code.length + 1)).map labelRow := by
  induction code generalizing index with
  | nil => rfl
  | cons instruction code ih =>
      have next_index : index + 1 + code.length = index + (code.length + 1) := by omega
      simp only [List.cons_append, rowsFrom, ih, List.append_assoc, List.length_cons, next_index]

theorem namesAt_of_size_lt {program : Program} (ordered : Ordered program) {index : Nat}
    (beyond : program.size < index) : program.namesAt index = [] := by
  rw [namesAt, List.map_eq_nil_iff, List.filter_eq_nil_iff]
  intro label label_mem at_index
  have within := ordered.within label label_mem
  rw [beq_iff_eq] at at_index
  omega

theorem printedRows_emit {program : Program} (ordered : Ordered program) (opcode : Opcode)
    (span magnitude : UInt64) :
    (program.emit opcode span magnitude).printedRows =
      program.printedRows ++ [Instruction.row ⟨opcode, span, magnitude, program.size⟩] := by
  have same_labels : (program.emit opcode span magnitude).labels = program.labels := rfl
  have no_names : program.namesAt (program.code.length + 1) = [] :=
    namesAt_of_size_lt ordered (Nat.lt_succ_self _)
  rw [printedRows, rowsFrom_congr same_labels rfl, emit, rowsFrom_append, Nat.zero_add, no_names]
  rfl

theorem map_row_withOrigin (program : Program) (origin : Nat) :
    (program.withOrigin origin).code.map Instruction.row = program.code.map Instruction.row := by
  apply List.ext_getElem?
  intro index
  simp only [withOrigin, List.getElem?_map, List.getElem?_modify]
  cases program.code[index]? with
  | none => rfl
  | some instruction =>
      simp only [Option.map_some]
      split <;> rfl

theorem printedRows_withOrigin (program : Program) (origin : Nat) :
    (program.withOrigin origin).printedRows = program.printedRows := by
  have same_labels : (program.withOrigin origin).labels = program.labels := rfl
  exact rowsFrom_congr same_labels (map_row_withOrigin program origin) 0

theorem namesAt_addLabel (program : Program) (name : Bytes) (index : Nat) :
    (program.addLabel name).namesAt index =
      program.namesAt index ++ if program.size = index then [name] else [] := by
  simp only [namesAt, addLabel, List.filter_append, List.map_append]
  congr 1
  split
  · rename_i here
    simp [here]
  · rename_i elsewhere
    simp [elsewhere]

theorem rowsFrom_addLabel (program : Program) (name : Bytes) {index : Nat}
    {code : List Instruction} (ends : index + code.length = program.size) :
    (program.addLabel name).rowsFrom index code =
      program.rowsFrom index code ++ [labelRow name] := by
  induction code generalizing index with
  | nil =>
      rw [List.length_nil, Nat.add_zero] at ends
      rw [rowsFrom, namesAt_addLabel, if_pos ends.symm, List.map_append]
      rfl
  | cons instruction code ih =>
      rw [List.length_cons] at ends
      rw [rowsFrom, namesAt_addLabel, if_neg (by omega), List.append_nil, ih (by omega)]
      simp only [rowsFrom, List.append_assoc, List.cons_append]

theorem printedRows_addLabel (program : Program) (name : Bytes) :
    (program.addLabel name).printedRows = program.printedRows ++ [labelRow name] :=
  rowsFrom_addLabel program name (Nat.zero_add _)

/-- The rows of a program that was built have its instructions and labels in their places. -/
theorem Built.outlines {program : Program} (built : Built program)
    (distinct : (program.labels.map Label.name).Nodup) :
    Outlines Prints program.printedRows program.code program.labels := by
  induction built with
  | empty =>
      refine ⟨List.Forall₂.nil, rfl, ?_⟩
      intro label label_mem
      cases label_mem
  | @emit program built opcode span magnitude ih =>
      rw [printedRows_emit built.ordered]
      exact (ih distinct).append_row _
  | @withOrigin program built nonempty origin ih =>
      have same_rows := map_row_withOrigin program origin
      rcases ih distinct with ⟨items, label_names, label_places⟩
      rw [forall₂_prints_iff, ← same_rows] at items
      rw [printedRows_withOrigin]
      exact ⟨forall₂_prints_iff.mpr items, label_names, label_places⟩
  | @addLabel program built name ih =>
      rw [Program.addLabel, List.map_append, List.nodup_append] at distinct
      rcases distinct with ⟨distinct, -, apart⟩
      rw [printedRows_addLabel]
      apply (ih distinct).append_labelRow
      intro defined
      exact apart name defined name (List.mem_singleton_self name) rfl

/-- A program that was built is read back from its listing. -/
theorem Built.exists_reread {program : Program} (built : Built program)
    (names_formed : ∀ label ∈ program.labels, isLabelName label.name = true)
    (distinct : (program.labels.map Label.name).Nodup) :
    ∃ result, ofListing program.toListing = .ok result ∧ result.labels = program.labels ∧
      List.Forall₂ Instruction.Reread program.code result.code := by
  have outlines := built.outlines distinct
  rw [← outlines_append_blank, ← rows_toListing names_formed] at outlines
  have grammatical := outlines.grammatical names_formed distinct
  rcases (exists_ofListing_iff program.toListing).mpr grammatical with ⟨result, read⟩
  have denotes := denotesProgram_of_ofListing (outlines.smallPlaces) read
  refine ⟨result, read, ?_, ?_⟩
  · rw [denotes.labels_eq, outlines.labels_eq]
  · apply forall₂_trans outlines.items.flip denotes.items
    intro printed _ entry reread prints denoted
    exact Instruction.Reread.of_denotes prints denoted

theorem ordered_of_outlines {α : Type} {R : Entry → α → Prop} {rows : List (List Bytes)}
    {items : List α} {program : Program} (outlines : Outlines R rows items program.labels)
    (distinct : (names rows).Nodup) (same_length : items.length = program.code.length) :
    Ordered program := by
  constructor
  · intro label label_mem
    rw [outlines.label_places label label_mem, size, ← same_length, ← outlines.items.length_eq]
    exact place_le rows label.name
  · rw [outlines.labels_eq, List.pairwise_map]
    exact places_sorted distinct

/-- What has been read could have been built, and has nothing set that it does not spell out. -/
theorem built_of_ofListing {text : Bytes} {program : Program}
    (read : ofListing text = .ok program) :
    Built program ∧ (∀ label ∈ program.labels, isLabelName label.name = true) ∧
      (program.labels.map Label.name).Nodup ∧
      ∀ instruction ∈ program.code, instruction.IsSpelled := by
  rcases ofListing_eq_ok_iff.mp read with ⟨draft, added, resolved⟩
  have covers : Draft.Covers ((lines text).map words) draft := Draft.covers_nil.addLines added
  rcases Draft.toProgram_eq_ok resolved with ⟨same_labels, code⟩
  have outlines := covers.outlines
  rw [← same_labels] at outlines
  refine ⟨?_, ?_, ?_, ?_⟩
  · exact (ordered_of_outlines outlines covers.names_distinct code.length_eq).built
  · intro label label_mem
    apply covers.names_formed
    rw [← outlines.label_names]
    exact List.mem_map_of_mem label_mem
  · rw [outlines.label_names]
    exact covers.names_distinct
  · intro instruction instruction_mem
    rcases exists_mem_right code.flip instruction_mem with
      ⟨statement, statement_mem, statement_resolved⟩
    rcases exists_mem_right outlines.items.flip statement_mem with ⟨entry, -, spells⟩
    exact Statement.Spells.isSpelled_of_resolve spells statement_resolved

/--
The listing of a program that was built can be read, with the same labels and with all
that is spelled out of its instructions. A program that was itself read comes back
unchanged except for its origins.
-/
theorem ofListing_toListing :
    (∀ program : Program, Built program →
      (∀ label ∈ program.labels, isLabelName label.name = true) →
      (program.labels.map Label.name).Nodup →
      ∃ result, ofListing program.toListing = .ok result ∧ result.labels = program.labels ∧
        List.Forall₂ Instruction.Reread program.code result.code) ∧
    ∀ (text : Bytes) (program : Program), ofListing text = .ok program →
      Built program ∧ (∀ label ∈ program.labels, isLabelName label.name = true) ∧
      (program.labels.map Label.name).Nodup ∧
      ∃ result, ofListing program.toListing = .ok result ∧ result.labels = program.labels ∧
        List.Forall₂ Instruction.SameButOrigin program.code result.code := by
  constructor
  · intro program built names_formed distinct
    exact built.exists_reread names_formed distinct
  · intro text program read
    rcases built_of_ofListing read with ⟨built, names_formed, distinct, spelled⟩
    rcases built.exists_reread names_formed distinct with ⟨result, reread, same_labels, code⟩
    refine ⟨built, names_formed, distinct, result, reread, same_labels, ?_⟩
    have each : List.Forall₂
        (fun printed read => printed.IsSpelled ∧ Instruction.Reread printed read)
        program.code result.code :=
      (List.forall₂_and_left _ _).mpr ⟨spelled, code⟩
    exact each.imp fun _ _ both => both.2.sameButOrigin both.1

theorem ofListing_toListing_label_named_push :
    let program := ((((({} : Program).addLabel (ascii "push")).emit .push 3
      0xFFFFFFFFFFFFFFFF).withOrigin 9).emit .jump 5 1).addLabel (ascii "end")
    let read : Program := ⟨[⟨.jump, 0, 1, 1⟩], [⟨1, ascii "end"⟩]⟩
    (Built program ∧ (∀ label ∈ program.labels, isLabelName label.name = true) ∧
      (program.labels.map Label.name).Nodup ∧
      ∃ result, ofListing program.toListing = .ok result ∧ result.labels = program.labels ∧
        List.Forall₂ Instruction.Reread program.code result.code) ∧
    ofListing (ascii "jmp end\nend:") = .ok read ∧
      ∃ result, ofListing read.toListing = .ok result ∧ result.labels = read.labels ∧
        List.Forall₂ Instruction.SameButOrigin read.code result.code := by
  intro program read
  have built : Built program :=
    ((((Built.empty.addLabel _).emit _ _ _).withOrigin (by simp [emit]) _).emit _ _ _).addLabel _
  have names_formed : ∀ label ∈ program.labels, isLabelName label.name = true := by
    decide +kernel
  have distinct : (program.labels.map Label.name).Nodup := by
    decide +kernel
  have assembled : ofListing (ascii "jmp end\nend:") = .ok read := by
    decide +kernel
  refine ⟨⟨built, names_formed, distinct, ?_⟩, assembled, ?_⟩
  · exact ofListing_toListing.1 program built names_formed distinct
  · exact (ofListing_toListing.2 _ read assembled).2.2.2

end Program

end SpanMachine
