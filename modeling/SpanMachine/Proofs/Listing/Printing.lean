import SpanMachine.Listing.Printer
import SpanMachine.Proofs.Listing.Statements

/-!
# The rows of a printed listing

A printed listing is made of lines, each of which falls into words that are known: the
label with its colon, or the mnemonic and the operands as numerals. Padding and
comments leave no trace in the rows.
-/

namespace SpanMachine

namespace Listing

/-- A word that splitting a line leaves in one piece. -/
structure IsPlain (word : Bytes) : Prop where
  ne_nil : word ≠ []
  no_space : ∀ byte ∈ word, Byte.isSpace byte = false
  no_semicolon : Byte.semicolon ∉ word

theorem takeWhile_append_of_no_semicolon {first : Bytes} (no_semicolon : Byte.semicolon ∉ first)
    (second : Bytes) :
    (first ++ second).takeWhile (· != Byte.semicolon) =
      first ++ second.takeWhile (· != Byte.semicolon) := by
  apply List.takeWhile_append_of_pos
  intro byte byte_mem
  rw [bne_iff_ne]
  rintro rfl
  exact no_semicolon byte_mem

theorem words_of_isPlain {word : Bytes} (plain : IsPlain word) : words word = [word] := by
  have whole := takeWhile_append_of_no_semicolon plain.no_semicolon []
  rw [List.append_nil, List.takeWhile_nil, List.append_nil] at whole
  rw [words, whole, List.splitOnP_eq_singleton plain.no_space]
  simp [plain.ne_nil]

/-- A line falls apart at a space. -/
theorem words_append_cons {first : Bytes} (no_semicolon : Byte.semicolon ∉ first) {byte : UInt8}
    (is_space : Byte.isSpace byte = true) (second : Bytes) :
    words (first ++ byte :: second) = words first ++ words second := by
  have not_semicolon : (byte != Byte.semicolon) = true := by
    rw [bne_iff_ne]
    rintro rfl
    revert is_space
    decide
  have first_whole := takeWhile_append_of_no_semicolon no_semicolon []
  rw [List.append_nil, List.takeWhile_nil, List.append_nil] at first_whole
  rw [words, takeWhile_append_of_no_semicolon no_semicolon, List.takeWhile_cons,
    if_pos not_semicolon, List.splitOnP_append_cons _ _ is_space, List.filter_append, words,
    first_whole, words]

theorem words_replicate_space (count : Nat) :
    words (List.replicate count Byte.space) = [] := by
  induction count with
  | zero => rfl
  | succ count ih =>
      have split := words_append_cons (List.not_mem_nil (a := Byte.semicolon))
        (show Byte.isSpace Byte.space = true from rfl) (List.replicate count Byte.space)
      rw [List.nil_append, ih] at split
      exact split

theorem words_padRight {text : Bytes} (no_semicolon : Byte.semicolon ∉ text) (width : Nat) :
    words (Bytes.padRight width text) = words text := by
  rw [Bytes.padRight]
  cases width - text.length with
  | zero => simp
  | succ count =>
      rw [List.replicate_succ, words_append_cons no_semicolon rfl, words_replicate_space,
        List.append_nil]

/-- A line of its own is a row of its own. -/
theorem rows_append_lineFeed {line : Bytes} (no_feed : Byte.lineFeed ∉ line)
    (no_return : Byte.carriageReturn ∉ line) (text : Bytes) :
    rows (line ++ Byte.lineFeed :: text) = words line :: rows text := by
  have kept : dropReturn line = line := by
    rw [dropReturn, if_neg]
    intro returned
    exact no_return (List.mem_of_getLast? returned)
  rw [rows, List.splitOn_append_cons_self_of_not_mem no_feed, List.map_cons, kept]
  rfl

end Listing

namespace Byte

/-- The bytes of which instructions are printed. -/
def isPrinted (byte : UInt8) : Bool :=
  byte == tab || byte == space || isLetter byte || isDigit byte

theorem isPrinted_of_isLetter {byte : UInt8} (is_letter : isLetter byte = true) :
    isPrinted byte = true := by
  simp [isPrinted, is_letter]

theorem isPrinted_of_isDigit {byte : UInt8} (is_digit : isDigit byte = true) :
    isPrinted byte = true := by
  simp [isPrinted, is_digit]

end Byte

namespace Opcode

theorem isLetter_of_mem_mnemonic {opcode : Opcode} {byte : UInt8}
    (byte_mem : byte ∈ opcode.mnemonic) : Byte.isLetter byte = true := by
  have letters : opcode.mnemonic.all Byte.isLetter = true := by
    cases opcode with
    | combine operator => cases operator <;> decide
    | _ => decide
  exact List.all_eq_true.mp letters byte byte_mem

end Opcode

namespace Instruction

open Listing

/-- The words of an instruction in a printed listing. -/
def row (instruction : Instruction) : List Bytes :=
  instruction.opcode.mnemonic ::
    instruction.opcode.operands.map fun operand =>
      Decimal.ofNat (instruction.operand operand).toNat

/-- The numbers that are printed are those of the operands. -/
theorem numbers_eq (instruction : Instruction) :
    instruction.numbers = instruction.opcode.operands.map instruction.operand := by
  rcases instruction with ⟨opcode, span, magnitude, origin⟩
  cases opcode <;> rfl

theorem isPrinted_of_mem_text {instruction : Instruction} {byte : UInt8}
    (byte_mem : byte ∈ instruction.text) : Byte.isPrinted byte = true := by
  simp only [text, Bytes.padRight, List.cons_append, List.mem_cons, List.mem_append,
    List.mem_replicate, List.mem_flatMap] at byte_mem
  rcases byte_mem with rfl | (letter_mem | ⟨-, rfl⟩) | ⟨number, -, rfl | digit_mem⟩
  · exact rfl
  · exact Byte.isPrinted_of_isLetter (Opcode.isLetter_of_mem_mnemonic letter_mem)
  · exact rfl
  · exact rfl
  · exact Byte.isPrinted_of_isDigit (Decimal.isDigit_of_mem_ofNat digit_mem)

theorem semicolon_not_mem_text (instruction : Instruction) :
    Byte.semicolon ∉ instruction.text := by
  intro semicolon_mem
  exact absurd (isPrinted_of_mem_text semicolon_mem) (by decide)

/-- The line of an instruction up to its line feed. -/
def lineText (instruction : Instruction) (index width : Nat) : Bytes :=
  Bytes.padRight width instruction.text ++ ascii "  ; " ++ Decimal.padded 4 index ++
    ascii " line " ++ Decimal.ofNat instruction.origin

theorem isPrinted_of_mem_lineText {instruction : Instruction} {index width : Nat} {byte : UInt8}
    (byte_mem : byte ∈ instruction.lineText index width) :
    Byte.isPrinted byte = true ∨ byte = Byte.semicolon := by
  have mark : (ascii "  ; ").all (fun byte => byte == Byte.space || byte == Byte.semicolon) =
      true := by
    decide
  have remark : (ascii " line ").all Byte.isPrinted = true := by
    decide
  simp only [List.all_eq_true, Bool.or_eq_true, beq_iff_eq] at mark remark
  simp only [lineText, Bytes.padRight, Decimal.padded, Bytes.padLeft, List.mem_append,
    List.mem_replicate] at byte_mem
  rcases byte_mem with ((((text_mem | ⟨-, rfl⟩) | mark_mem) | ⟨-, rfl⟩ | index_mem) |
    remark_mem) | origin_mem
  · exact Or.inl (isPrinted_of_mem_text text_mem)
  · exact Or.inl rfl
  · rcases mark byte mark_mem with rfl | rfl
    · exact Or.inl rfl
    · exact Or.inr rfl
  · exact Or.inl (Byte.isPrinted_of_isDigit (Decimal.isDigit_digit (by decide)))
  · exact Or.inl (Byte.isPrinted_of_isDigit (Decimal.isDigit_of_mem_ofNat index_mem))
  · exact Or.inl (remark byte remark_mem)
  · exact Or.inl (Byte.isPrinted_of_isDigit (Decimal.isDigit_of_mem_ofNat origin_mem))

theorem not_mem_lineText (instruction : Instruction) (index width : Nat) {byte : UInt8}
    (not_printed : Byte.isPrinted byte = false) (not_mark : byte ≠ Byte.semicolon) :
    byte ∉ instruction.lineText index width := by
  intro byte_mem
  rcases isPrinted_of_mem_lineText byte_mem with printed | marked
  · rw [printed] at not_printed
    cases not_printed
  · exact not_mark marked

theorem isPlain_mnemonic (opcode : Opcode) : IsPlain opcode.mnemonic := by
  constructor
  · cases opcode with
    | combine operator => cases operator <;> decide
    | _ => decide
  · intro byte byte_mem
    exact Byte.isSpace_of_isLetter (Opcode.isLetter_of_mem_mnemonic byte_mem)
  · intro semicolon_mem
    exact absurd (Opcode.isLetter_of_mem_mnemonic semicolon_mem) (by decide)

theorem isPlain_ofNat (number : Nat) : IsPlain (Decimal.ofNat number) := by
  constructor
  · exact Decimal.ofNat_ne_nil number
  · intro byte byte_mem
    exact Byte.isSpace_of_isDigit (Decimal.isDigit_of_mem_ofNat byte_mem)
  · intro semicolon_mem
    exact absurd (Decimal.isDigit_of_mem_ofNat semicolon_mem) (by decide)

/-- Numbers after a space each are words of their own. -/
theorem words_append_numbers (numbers : List UInt64) {text : Bytes}
    (no_semicolon : Byte.semicolon ∉ text) :
    words (text ++ numbers.flatMap fun number => Byte.space :: Decimal.ofNat number.toNat) =
      words text ++ numbers.map fun number => Decimal.ofNat number.toNat := by
  induction numbers generalizing text with
  | nil => simp
  | cons number numbers ih =>
      have plain := isPlain_ofNat number.toNat
      have still_no_semicolon :
          Byte.semicolon ∉ text ++ Byte.space :: Decimal.ofNat number.toNat := by
        simp only [List.mem_append, List.mem_cons, not_or]
        exact ⟨no_semicolon, by decide, plain.no_semicolon⟩
      rw [List.flatMap_cons, ← List.append_assoc, ih still_no_semicolon,
        words_append_cons no_semicolon rfl, words_of_isPlain plain, List.map_cons,
        List.append_assoc]
      rfl

theorem words_text (instruction : Instruction) : words instruction.text = instruction.row := by
  have plain := isPlain_mnemonic instruction.opcode
  have no_semicolon : Byte.semicolon ∉
      Byte.tab :: Bytes.padRight mnemonicWidth instruction.opcode.mnemonic := by
    simp only [Bytes.padRight, List.mem_cons, List.mem_append, List.mem_replicate, not_or, not_and]
    exact ⟨by decide, plain.no_semicolon, fun _ => by decide⟩
  have indented := words_append_cons (List.not_mem_nil (a := Byte.semicolon))
    (show Byte.isSpace Byte.tab = true from rfl)
    (Bytes.padRight mnemonicWidth instruction.opcode.mnemonic)
  rw [List.nil_append, words_padRight plain.no_semicolon, words_of_isPlain plain] at indented
  rw [text, words_append_numbers _ no_semicolon, indented, numbers_eq, List.map_map]
  rfl

theorem words_lineText (instruction : Instruction) (index width : Nat) :
    words (instruction.lineText index width) = instruction.row := by
  have no_semicolon : Byte.semicolon ∉ Bytes.padRight width instruction.text := by
    simp only [Bytes.padRight, List.mem_append, List.mem_replicate, not_or, not_and]
    exact ⟨semicolon_not_mem_text instruction, fun _ => by decide⟩
  have comment_hidden : ∀ comment, words (Byte.space :: Byte.semicolon :: comment) = [] := by
    intro comment
    rw [words, List.takeWhile_cons, if_pos (by decide), List.takeWhile_cons, if_neg (by decide)]
    decide
  have mark : ascii "  ; " = Byte.space :: Byte.space :: [Byte.semicolon, Byte.space] := by
    decide
  rw [lineText, mark]
  simp only [List.append_assoc, List.cons_append]
  rw [words_append_cons no_semicolon rfl, comment_hidden,
    words_padRight (semicolon_not_mem_text instruction), words_text, List.append_nil]

end Instruction

namespace Listing

theorem byte_of_mem_labelName {name : Bytes} (is_name : isLabelName name = true) {byte : UInt8}
    (byte_mem : byte ∈ name) :
    Byte.isLetter byte = true ∨ Byte.isDigit byte = true ∨ byte = Byte.underscore ∨
      byte = Byte.dot := by
  cases name with
  | nil => cases byte_mem
  | cons first rest =>
      simp only [isLabelName, Bool.and_eq_true, Bool.or_eq_true, beq_iff_eq,
        List.all_eq_true] at is_name
      rcases List.mem_cons.mp byte_mem with rfl | rest_mem
      · rcases is_name.1 with is_letter | is_underscore
        · exact Or.inl is_letter
        · exact Or.inr (Or.inr (Or.inl is_underscore))
      · rcases is_name.2 byte rest_mem with ((is_letter | is_digit) | is_underscore) | is_dot
        · exact Or.inl is_letter
        · exact Or.inr (Or.inl is_digit)
        · exact Or.inr (Or.inr (Or.inl is_underscore))
        · exact Or.inr (Or.inr (Or.inr is_dot))

/-- A byte of no class of names is in no label. -/
theorem not_mem_label {name : Bytes} (is_name : isLabelName name = true) {byte : UInt8}
    (no_letter : Byte.isLetter byte = false) (no_digit : Byte.isDigit byte = false)
    (other : byte ∉ [Byte.underscore, Byte.dot, Byte.colon]) : byte ∉ name ++ [Byte.colon] := by
  simp only [List.mem_cons, List.not_mem_nil, or_false, not_or] at other
  intro byte_mem
  rcases List.mem_append.mp byte_mem with name_mem | colon_mem
  · rcases byte_of_mem_labelName is_name name_mem with is_letter | is_digit | is_mark | is_dot
    · rw [is_letter] at no_letter
      cases no_letter
    · rw [is_digit] at no_digit
      cases no_digit
    · exact other.1 is_mark
    · exact other.2.1 is_dot
  · exact other.2.2 (List.mem_singleton.mp colon_mem)

theorem isPlain_label {name : Bytes} (is_name : isLabelName name = true) :
    IsPlain (name ++ [Byte.colon]) := by
  constructor
  · simp
  · intro byte byte_mem
    rcases List.mem_append.mp byte_mem with name_mem | colon_mem
    · rcases byte_of_mem_labelName is_name name_mem with is_letter | is_digit | rfl | rfl
      · exact Byte.isSpace_of_isLetter is_letter
      · exact Byte.isSpace_of_isDigit is_digit
      · rfl
      · rfl
    · rw [List.mem_singleton.mp colon_mem]
      rfl
  · exact not_mem_label is_name (by decide) (by decide) (by decide)

theorem upToNul_labelName {name : Bytes} (is_name : isLabelName name = true) :
    Bytes.upToNul name = name := by
  have no_nul : Byte.nul ∉ name ++ [Byte.colon] :=
    not_mem_label is_name (by decide) (by decide) (by decide)
  rw [Bytes.upToNul, List.takeWhile_eq_self_iff]
  intro byte byte_mem
  rw [bne_iff_ne]
  rintro rfl
  exact no_nul (List.mem_append_left _ byte_mem)

/-- The row of a label that has a line of its own. -/
def labelRow (name : Bytes) : List Bytes :=
  [name ++ [Byte.colon]]

theorem rows_append_labels {names : List Bytes}
    (are_names : ∀ name ∈ names, isLabelName name = true) (text : Bytes) :
    rows ((names.flatMap fun name => name.upToNul ++ [Byte.colon, Byte.lineFeed]) ++ text) =
      names.map labelRow ++ rows text := by
  induction names with
  | nil => rfl
  | cons name names ih =>
      rw [List.forall_mem_cons] at are_names
      have no_feed : Byte.lineFeed ∉ name ++ [Byte.colon] :=
        not_mem_label are_names.1 (by decide) (by decide) (by decide)
      have no_return : Byte.carriageReturn ∉ name ++ [Byte.colon] :=
        not_mem_label are_names.1 (by decide) (by decide) (by decide)
      have first_line := rows_append_lineFeed no_feed no_return
        ((names.flatMap fun name => name.upToNul ++ [Byte.colon, Byte.lineFeed]) ++ text)
      rw [words_of_isPlain (isPlain_label are_names.1), ih are_names.2] at first_line
      rw [List.flatMap_cons, upToNul_labelName are_names.1, List.map_cons, List.cons_append,
        labelRow, ← first_line]
      simp only [List.append_assoc, List.cons_append, List.nil_append]

end Listing

namespace Program

open Listing

/-- The rows that the lines from the given index on have. -/
def rowsFrom (program : Program) (index : Nat) : List Instruction → List (List Bytes)
  | [] => (program.namesAt index).map labelRow
  | instruction :: rest =>
    (program.namesAt index).map labelRow ++ instruction.row :: program.rowsFrom (index + 1) rest

theorem rows_linesFrom {program : Program}
    (names_formed : ∀ label ∈ program.labels, isLabelName label.name = true) (index width : Nat)
    (code : List Instruction) :
    rows (program.linesFrom index width code) = program.rowsFrom index code ++ [[]] := by
  have are_names : ∀ index, ∀ name ∈ program.namesAt index, isLabelName name = true := by
    intro index name name_mem
    simp only [namesAt, List.mem_map, List.mem_filter] at name_mem
    rcases name_mem with ⟨label, ⟨label_mem, -⟩, rfl⟩
    exact names_formed label label_mem
  induction code generalizing index width with
  | nil =>
      have labelled := rows_append_labels (are_names index) []
      rw [List.append_nil] at labelled
      exact labelled
  | cons instruction rest ih =>
      rw [linesFrom, rowsFrom, labelLines, List.append_assoc,
        rows_append_labels (are_names index)]
      have line_eq : ∀ width, instruction.line index width =
          instruction.lineText index width ++ [Byte.lineFeed] := fun _ => rfl
      rw [line_eq, List.append_assoc, List.singleton_append,
        rows_append_lineFeed (instruction.not_mem_lineText _ _ (by decide) (by decide))
          (instruction.not_mem_lineText _ _ (by decide) (by decide)),
        instruction.words_lineText, ih, List.append_assoc, List.cons_append]

end Program

end SpanMachine
