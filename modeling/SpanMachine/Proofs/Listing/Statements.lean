import SpanMachine.Proofs.Bytes.Decimal
import SpanMachine.Proofs.Listing.Words

/-!
# What the operands of one line say

A mnemonic decides how many words follow it and what each of them is. Statements are
read with a table of mnemonics, a number of operands and a case for each form that know
nothing of the grammar or of how programs are printed, so all three are compared first.

The words are taken from left to right, and as no mnemonic has two operands of one kind,
what one of them gives is not overwritten by the next. So a statement can be read exactly
if each word is acceptable by itself, and then it holds what its words say.

At the end of reading, a statement becomes an instruction. One that refers to a label
needs the label to be defined; every other one is an instruction already.
-/

namespace SpanMachine

namespace Decimal

theorem readWord?_of_isWord {word : Bytes} (is_word : Listing.IsWord word) :
    readWord? word = some (UInt64.ofNat (value word)) := by
  simp [readWord?, is_word.1, is_word.2]

theorem readWord?_of_not_isWord {word : Bytes} (not_word : ¬Listing.IsWord word) :
    readWord? word = none := by
  simp only [Listing.IsWord, not_and] at not_word
  simp only [readWord?, Bool.and_eq_true, decide_eq_true_eq]
  rw [if_neg]
  rintro ⟨numeral, small⟩
  exact not_word numeral small

end Decimal

namespace Opcode

theorem operandCount_eq (opcode : Opcode) : opcode.operandCount = opcode.operands.length := by
  cases opcode <;> rfl

theorem mem_keywords (opcode : Opcode) : (opcode.mnemonic, opcode) ∈ keywords := by
  cases opcode with
  | combine operator => cases operator <;> simp [keywords, mnemonic, Operator.mnemonic]
  | _ => simp [keywords, mnemonic]

/-- A word names an opcode exactly if it is its mnemonic. -/
theorem ofMnemonic?_eq_some_iff {word : Bytes} {opcode : Opcode} :
    ofMnemonic? word = some opcode ↔ opcode.mnemonic = word := by
  constructor
  · intro found
    have named : ∀ entry ∈ keywords, entry.2.mnemonic = entry.1 := by decide
    rcases List.lookup_eq_some_iff.mp found with ⟨front, back, split, -⟩
    apply named (word, opcode)
    simp [split]
  · rintro rfl
    have first : ∀ entry ∈ keywords, keywords.lookup entry.1 = some entry.2 := by decide
    exact first _ (mem_keywords opcode)

/-- No two opcodes share a mnemonic. -/
theorem mnemonic_injective {first second : Opcode} (same : first.mnemonic = second.mnemonic) :
    first = second := by
  have first_named := ofMnemonic?_eq_some_iff.mpr same
  rw [ofMnemonic?_eq_some_iff.mpr rfl, Option.some.injEq] at first_named
  exact first_named.symm

/-- The five lists of operands there are. -/
theorem operands_cases (opcode : Opcode) :
    opcode.operands = [] ∨ opcode.operands = [.span] ∨ opcode.operands = [.target] ∨
      opcode.operands = [.span, .magnitude] ∨ opcode.operands = [.span, .target] := by
  cases opcode <;> simp [operands]

theorem operands_of_target_mem {opcode : Opcode} (target_mem : .target ∈ opcode.operands) :
    opcode.operands = [.target] ∨ opcode.operands = [.span, .target] := by
  cases opcode <;> simp_all [operands]

end Opcode

namespace Listing

theorem bind_eq_ok_iff {ε α β : Type} {first : Except ε α} {next : α → Except ε β} {result : β} :
    first >>= next = .ok result ↔ ∃ value, first = .ok value ∧ next value = .ok result := by
  cases first with
  | error fault => simp [bind, Except.bind]
  | ok value => simp [bind, Except.bind]

theorem bind_eq_error_iff {ε α β : Type} {first : Except ε α} {next : α → Except ε β}
    {fault : ε} :
    first >>= next = .error fault ↔
      first = .error fault ∨ ∃ value, first = .ok value ∧ next value = .error fault := by
  cases first with
  | error other => simp [bind, Except.bind]
  | ok value => simp [bind, Except.bind]

/-- A word is not both a name and a numeral, since names do not begin with a digit. -/
theorem not_isWord_of_isLabelName {word : Bytes} (is_name : isLabelName word = true) :
    ¬IsWord word := by
  rintro ⟨numeral, -⟩
  cases word with
  | nil => simp [isLabelName] at is_name
  | cons first rest =>
      simp only [isLabelName, Bool.and_eq_true, Bool.or_eq_true, beq_iff_eq] at is_name
      simp only [Decimal.isNumeral, List.all_cons, Bool.and_eq_true] at numeral
      have not_digit : Byte.isDigit first = false := by
        rcases is_name.1 with letter | rfl
        · exact Byte.isDigit_of_isLetter letter
        · rfl
      rw [not_digit] at numeral
      exact absurd numeral.2.1 Bool.false_ne_true

theorem Accepts.defined {defined : Bytes → Prop} {name : Bytes}
    (accepted : Accepts defined .target name) (is_name : isLabelName name = true) :
    defined name := by
  rcases accepted with is_word | ⟨-, is_defined⟩
  · exact absurd is_word (not_isWord_of_isLabelName is_name)
  · exact is_defined

end Listing

/-- Nothing is set that the mnemonic does not spell out. -/
def Instruction.IsSpelled (instruction : Instruction) : Prop :=
  (.span ∉ instruction.opcode.operands → instruction.span = 0) ∧
    (.magnitude ∉ instruction.opcode.operands → .target ∉ instruction.opcode.operands →
      instruction.magnitude = 0)

namespace Statement

open Listing

/-- The statement with the word of an accepted operand in its place. -/
def assign (statement : Statement) (operand : Operand) (token : Token) : Statement :=
  if operand = .target ∧ isLabelName token.text then
    { statement with reference := some token }
  else
    match operand with
    | .span => { statement with span := UInt64.ofNat (Decimal.value token.text) }
    | .magnitude | .target =>
      { statement with magnitude := UInt64.ofNat (Decimal.value token.text) }

theorem assign_span (statement : Statement) (token : Token) :
    statement.assign .span token =
      { statement with span := UInt64.ofNat (Decimal.value token.text) } := by
  simp [assign]

theorem assign_magnitude (statement : Statement) (token : Token) :
    statement.assign .magnitude token =
      { statement with magnitude := UInt64.ofNat (Decimal.value token.text) } := by
  simp [assign]

theorem assign_target (statement : Statement) (token : Token) :
    statement.assign .target token =
      if isLabelName token.text then
        { statement with reference := some token }
      else
        { statement with magnitude := UInt64.ofNat (Decimal.value token.text) } := by
  simp [assign]

/-- Reads one operand into its place. -/
def addOperand (statement : Statement) : Operand × Token → Except ListingError Statement
  | (.span, token) => do
    let span ← readNumber statement.line .span token
    return { statement with span }
  | (.magnitude, token) => do
    let magnitude ← readNumber statement.line .magnitude token
    return { statement with magnitude }
  | (.target, token) => statement.addTarget token

/-- The operands of an opcode are read from left to right, each by its kind. -/
theorem ofOperands_eq_foldlM (line : Nat) {opcode : Opcode} (head : Token)
    {arguments : List Token} (complete : arguments.length = opcode.operands.length) :
    (ofOperands line opcode fun index => arguments.getD index head) =
      (opcode.operands.zip arguments).foldlM addOperand { line, opcode } := by
  cases opcode with
  | push | jumpUnlessPositive =>
      rcases List.length_eq_two.mp complete with ⟨span, other, rfl⟩
      simp [ofOperands, Opcode.operands, addOperand]
  | halt => simp [ofOperands, Opcode.operands]
  | _ =>
      rcases List.length_eq_one_iff.mp complete with ⟨token, rfl⟩
      simp [ofOperands, Opcode.operands, addOperand]

theorem readNumber_of_isWord (line : Nat) (operand : Operand) {token : Token}
    (is_word : IsWord token.text) :
    readNumber line operand token = .ok (UInt64.ofNat (Decimal.value token.text)) := by
  rw [readNumber, Decimal.readWord?_of_isWord is_word]

theorem readNumber_of_not_isWord (line : Nat) (operand : Operand) {token : Token}
    (not_word : ¬IsWord token.text) :
    readNumber line operand token =
      .error (token.error line (.malformed operand token.text)) := by
  rw [readNumber, Decimal.readWord?_of_not_isWord not_word]

theorem addOperand_of_accepts (statement : Statement) {operand : Operand} {token : Token}
    (accepted : Accepts (fun _ => True) operand token.text) :
    statement.addOperand (operand, token) = .ok (statement.assign operand token) := by
  cases operand with
  | span | magnitude =>
      rw [addOperand, readNumber_of_isWord _ _ accepted]
      rfl
  | target =>
      rw [addOperand, addTarget, assign_target]
      rcases accepted with is_word | ⟨is_name, -⟩
      · have not_name : ¬isLabelName token.text = true :=
          fun is_name => not_isWord_of_isLabelName is_name is_word
        rw [if_neg not_name, if_neg not_name, readNumber_of_isWord _ _ is_word]
        rfl
      · rw [if_pos is_name, if_pos is_name]

theorem addOperand_of_not_accepts (statement : Statement) {operand : Operand} {token : Token}
    (refused : ¬Accepts (fun _ => True) operand token.text) :
    statement.addOperand (operand, token) =
      .error (token.error statement.line (.malformed operand token.text)) := by
  cases operand with
  | span | magnitude =>
      rw [addOperand, readNumber_of_not_isWord _ _ refused]
      rfl
  | target =>
      have not_name : ¬isLabelName token.text = true :=
        fun is_name => refused (Or.inr ⟨is_name, trivial⟩)
      rw [addOperand, addTarget, if_neg not_name,
        readNumber_of_not_isWord _ _ fun is_word => refused (Or.inl is_word)]
      rfl

theorem accepts_of_addOperand {statement result : Statement} {operand : Operand} {token : Token}
    (added : statement.addOperand (operand, token) = .ok result) :
    Accepts (fun _ => True) operand token.text := by
  by_contra refused
  rw [addOperand_of_not_accepts statement refused] at added
  cases added

theorem foldlM_addOperand_of_accepts (statement : Statement) {operands : List Operand}
    {arguments : List Token}
    (accepted : List.Forall₂ (fun operand token => Accepts (fun _ => True) operand token.text)
      operands arguments) :
    (operands.zip arguments).foldlM addOperand statement =
      .ok ((operands.zip arguments).foldl (fun statement given => statement.assign given.1 given.2)
        statement) := by
  induction accepted generalizing statement with
  | nil => rfl
  | cons accepted _ ih =>
      rw [List.zip_cons_cons, List.foldlM_cons, addOperand_of_accepts statement accepted]
      exact ih _

theorem accepts_of_foldlM_addOperand {statement result : Statement} {operands : List Operand}
    {arguments : List Token} (same_length : arguments.length = operands.length)
    (added : (operands.zip arguments).foldlM addOperand statement = .ok result) :
    List.Forall₂ (fun operand token => Accepts (fun _ => True) operand token.text)
      operands arguments := by
  induction operands generalizing arguments statement with
  | nil =>
      rw [List.length_nil, List.length_eq_zero_iff] at same_length
      subst same_length
      exact List.Forall₂.nil
  | cons operand operands ih =>
      cases arguments with
      | nil => simp at same_length
      | cons token arguments =>
          rw [List.zip_cons_cons, List.foldlM_cons, bind_eq_ok_iff] at added
          rcases added with ⟨next, first, rest⟩
          exact List.Forall₂.cons (accepts_of_addOperand first)
            (ih (by simpa using same_length) rest)

/-- The part of a statement that a word of its body gives. -/
def Holds (statement : Statement) : Operand → Bytes → Prop
  | .span, word => IsWord word ∧ statement.span.toNat = Decimal.value word
  | .magnitude, word => IsWord word ∧ statement.magnitude.toNat = Decimal.value word
  | .target, word =>
      (isLabelName word = true ∧ ∃ token, statement.reference = some token ∧ token.text = word) ∨
        (isLabelName word = false ∧ statement.reference = none ∧ IsWord word ∧
          statement.magnitude.toNat = Decimal.value word)

/-- A statement says what a body says. -/
structure Spells (entry : Entry) (statement : Statement) : Prop where
  line : statement.line = entry.line
  mnemonic : statement.opcode.mnemonic = entry.mnemonic
  operands : List.Forall₂ statement.Holds statement.opcode.operands entry.operands
  span_zero : .span ∉ statement.opcode.operands → statement.span = 0
  magnitude_zero : .magnitude ∉ statement.opcode.operands →
    .target ∉ statement.opcode.operands → statement.magnitude = 0
  reference_none : .target ∉ statement.opcode.operands → statement.reference = none

theorem toNat_ofNat_value {word : Bytes} (is_word : IsWord word) :
    (UInt64.ofNat (Decimal.value word)).toNat = Decimal.value word :=
  UInt64.toNat_ofNat_of_lt is_word.2

@[simp]
theorem line_assign (statement : Statement) (operand : Operand) (token : Token) :
    (statement.assign operand token).line = statement.line := by
  cases operand <;> simp only [assign_span, assign_magnitude, assign_target]
  split <;> rfl

@[simp]
theorem opcode_assign (statement : Statement) (operand : Operand) (token : Token) :
    (statement.assign operand token).opcode = statement.opcode := by
  cases operand <;> simp only [assign_span, assign_magnitude, assign_target]
  split <;> rfl

@[simp]
theorem span_assign_magnitude (statement : Statement) (token : Token) :
    (statement.assign .magnitude token).span = statement.span := by
  rw [assign_magnitude]

@[simp]
theorem magnitude_assign_span (statement : Statement) (token : Token) :
    (statement.assign .span token).magnitude = statement.magnitude := by
  rw [assign_span]

@[simp]
theorem reference_assign_span (statement : Statement) (token : Token) :
    (statement.assign .span token).reference = statement.reference := by
  rw [assign_span]

@[simp]
theorem reference_assign_magnitude (statement : Statement) (token : Token) :
    (statement.assign .magnitude token).reference = statement.reference := by
  rw [assign_magnitude]

@[simp]
theorem span_assign_target (statement : Statement) (token : Token) :
    (statement.assign .target token).span = statement.span := by
  rw [assign_target]
  split <;> rfl

theorem holds_assign_target {statement : Statement} {token : Token}
    (no_reference : statement.reference = none)
    (accepted : Accepts (fun _ => True) .target token.text) :
    (statement.assign .target token).Holds .target token.text := by
  by_cases is_name : isLabelName token.text = true
  · left
    simp [assign_target, is_name]
  · right
    have is_word : IsWord token.text := by
      rcases accepted with is_word | ⟨named, -⟩
      · exact is_word
      · exact absurd named is_name
    simp [assign_target, is_name, no_reference, is_word, toNat_ofNat_value is_word]

theorem holds_assign_span (statement : Statement) {token : Token} (is_word : IsWord token.text) :
    (statement.assign .span token).Holds .span token.text := by
  rw [assign_span]
  exact ⟨is_word, toNat_ofNat_value is_word⟩

theorem holds_assign_magnitude (statement : Statement) {token : Token}
    (is_word : IsWord token.text) :
    (statement.assign .magnitude token).Holds .magnitude token.text := by
  rw [assign_magnitude]
  exact ⟨is_word, toNat_ofNat_value is_word⟩

theorem Holds.of_span_eq {statement other : Statement} {word : Bytes}
    (holds : statement.Holds .span word) (same_span : other.span = statement.span) :
    other.Holds .span word :=
  ⟨holds.1, by rw [same_span]; exact holds.2⟩

/-- Accepted operands, each in its place, say what their words say. -/
theorem spells_foldl_assign (line : Nat) (opcode : Opcode) {arguments : List Token}
    (accepted : List.Forall₂ (fun operand token => Accepts (fun _ => True) operand token.text)
      opcode.operands arguments) :
    Spells ⟨line, opcode.mnemonic, arguments.map Token.text⟩
      ((opcode.operands.zip arguments).foldl
        (fun statement given => statement.assign given.1 given.2) { line, opcode }) := by
  rcases opcode.operands_cases with shape | shape | shape | shape | shape
  all_goals rw [shape] at accepted ⊢
  · cases accepted
    constructor <;> simp [shape]
  · rcases accepted with _ | ⟨span_word, ⟨⟩⟩
    constructor <;> simp [shape]
    exact holds_assign_span _ span_word
  · rcases accepted with _ | ⟨target_word, ⟨⟩⟩
    constructor <;> simp [shape]
    exact holds_assign_target rfl target_word
  · rcases accepted with _ | ⟨span_word, _ | ⟨magnitude_word, ⟨⟩⟩⟩
    constructor <;> simp [shape]
    constructor
    · exact (holds_assign_span _ span_word).of_span_eq (span_assign_magnitude _ _)
    · exact holds_assign_magnitude _ magnitude_word
  · rcases accepted with _ | ⟨span_word, _ | ⟨target_word, ⟨⟩⟩⟩
    constructor <;> simp [shape]
    constructor
    · exact (holds_assign_span _ span_word).of_span_eq (span_assign_target _ _)
    · exact holds_assign_target rfl target_word

/-- What is read after the mnemonic of an opcode. -/
theorem ofTokens_of_mnemonic (line : Nat) {head : Token} {opcode : Opcode}
    (named : opcode.mnemonic = head.text) (arguments : List Token) :
    ofTokens line head arguments =
      if arguments.length = opcode.operands.length then
        (opcode.operands.zip arguments).foldlM addOperand { line, opcode }
      else
        .error ⟨.operandCount opcode.mnemonic opcode.operands.length arguments.length, line,
          head.column, (arguments.getLastD head).lastColumn⟩ := by
  simp only [ofTokens, Opcode.ofMnemonic?_eq_some_iff.mpr named, Opcode.operandCount_eq, named]
  split
  · rename_i complete
    exact ofOperands_eq_foldlM line head complete
  · rfl

theorem exists_of_ofTokens_eq_ok {line : Nat} {head : Token} {arguments : List Token}
    {statement : Statement} (read : ofTokens line head arguments = .ok statement) :
    ∃ opcode : Opcode, opcode.mnemonic = head.text ∧
      List.Forall₂ (fun operand token => Accepts (fun _ => True) operand token.text)
        opcode.operands arguments ∧
      (opcode.operands.zip arguments).foldl
        (fun statement given => statement.assign given.1 given.2) { line, opcode } =
          statement := by
  cases named : Opcode.ofMnemonic? head.text with
  | none => simp [ofTokens, named] at read
  | some opcode =>
      have mnemonic := Opcode.ofMnemonic?_eq_some_iff.mp named
      rw [ofTokens_of_mnemonic line mnemonic] at read
      split at read
      · rename_i same_length
        have accepted := accepts_of_foldlM_addOperand same_length read
        rw [foldlM_addOperand_of_accepts _ accepted, Except.ok.injEq] at read
        exact ⟨opcode, mnemonic, accepted, read⟩
      · cases read

theorem spells_of_ofTokens {line : Nat} {head : Token} {arguments : List Token}
    {statement : Statement} (read : ofTokens line head arguments = .ok statement) :
    Spells ⟨line, head.text, arguments.map Token.text⟩ statement := by
  rcases exists_of_ofTokens_eq_ok read with ⟨opcode, mnemonic, accepted, rfl⟩
  rw [← mnemonic]
  exact spells_foldl_assign line opcode accepted

theorem exists_ofTokens (line : Nat) {head : Token} {arguments : List Token}
    (formed : Entry.IsFormed (fun _ => True) ⟨line, head.text, arguments.map Token.text⟩) :
    ∃ statement, ofTokens line head arguments = .ok statement := by
  rcases formed with ⟨opcode, mnemonic, accepted⟩
  rw [List.forall₂_map_right_iff] at accepted
  rw [ofTokens_of_mnemonic line mnemonic, if_pos accepted.length_eq.symm]
  exact ⟨_, foldlM_addOperand_of_accepts _ accepted⟩

theorem Holds.target_of_reference {statement : Statement} {word : Bytes} {token : Token}
    (holds : statement.Holds .target word) (refers : statement.reference = some token) :
    isLabelName token.text = true ∧ word = token.text := by
  rcases holds with ⟨is_name, other, refers_other, rfl⟩ | ⟨-, no_reference, -⟩
  · rw [refers, Option.some.injEq] at refers_other
    subst refers_other
    exact ⟨is_name, rfl⟩
  · rw [refers] at no_reference
    cases no_reference

/-- A statement that refers to a label has its name as the last operand. -/
theorem Spells.operands_of_reference {entry : Entry} {statement : Statement} {token : Token}
    (spells : Spells entry statement) (refers : statement.reference = some token) :
    isLabelName token.text = true ∧
      ((statement.opcode.operands = [.target] ∧ entry.operands = [token.text]) ∨
        (statement.opcode.operands = [.span, .target] ∧
          ∃ word, entry.operands = [word, token.text] ∧ statement.Holds .span word)) := by
  have target_mem : .target ∈ statement.opcode.operands := by
    by_contra no_target
    rw [spells.reference_none no_target] at refers
    cases refers
  have holds := spells.operands
  rcases Opcode.operands_of_target_mem target_mem with shape | shape
  · rw [shape] at holds
    generalize entry.operands = words at holds ⊢
    rcases holds with _ | ⟨target_word, ⟨⟩⟩
    rcases target_word.target_of_reference refers with ⟨is_name, rfl⟩
    exact ⟨is_name, Or.inl ⟨shape, rfl⟩⟩
  · rw [shape] at holds
    generalize entry.operands = words at holds ⊢
    rcases holds with _ | ⟨span_word, _ | ⟨target_word, ⟨⟩⟩⟩
    rcases target_word.target_of_reference refers with ⟨is_name, rfl⟩
    exact ⟨is_name, Or.inr ⟨shape, _, rfl, span_word⟩⟩

/-- The entry of a statement is well formed as soon as the label it refers to is defined. -/
theorem Spells.isFormed_iff {entry : Entry} {statement : Statement} {defined : Bytes → Prop}
    (spells : Spells entry statement) :
    entry.IsFormed defined ↔
      ∀ token, statement.reference = some token → defined token.text := by
  constructor
  · rintro ⟨opcode, mnemonic, accepted⟩ token refers
    have same_opcode : opcode = statement.opcode :=
      Opcode.mnemonic_injective (mnemonic.trans spells.mnemonic.symm)
    subst same_opcode
    rcases spells.operands_of_reference refers with ⟨is_name, shapes⟩
    have target_accepted : Accepts defined .target token.text := by
      rcases shapes with ⟨shape, words⟩ | ⟨shape, word, words, -⟩
      · rw [shape, words] at accepted
        rcases accepted with _ | ⟨target_word, -⟩
        exact target_word
      · rw [shape, words] at accepted
        rcases accepted with _ | ⟨-, _ | ⟨target_word, -⟩⟩
        exact target_word
    exact target_accepted.defined is_name
  · intro found
    refine ⟨statement.opcode, spells.mnemonic, spells.operands.imp ?_⟩
    intro operand word holds
    cases operand with
    | span | magnitude => exact holds.1
    | target =>
        rcases holds with ⟨is_name, token, refers, rfl⟩ | ⟨-, -, is_word, -⟩
        · exact Or.inr ⟨is_name, found token refers⟩
        · exact Or.inl is_word

theorem Spells.denotes_of_none {entry : Entry} {statement : Statement}
    (spells : Spells entry statement) (rows : List (List Bytes))
    (no_reference : statement.reference = none) :
    Denotes rows entry
      ⟨statement.opcode, statement.span, statement.magnitude, statement.line + 1⟩ := by
  constructor
  · exact spells.mnemonic
  · apply spells.operands.imp
    intro operand word holds
    cases operand with
    | span | magnitude => exact holds.2
    | target =>
        rcases holds with ⟨-, token, refers, -⟩ | ⟨not_name, -, -, same⟩
        · rw [no_reference] at refers
          cases refers
        · simpa [States, not_name] using same
  · exact spells.span_zero
  · exact spells.magnitude_zero
  · rw [spells.line]

theorem Spells.denotes_of_some {entry : Entry} {statement : Statement} {token : Token}
    (spells : Spells entry statement) (rows : List (List Bytes))
    (refers : statement.reference = some token)
    (small : place rows token.text < UInt64.size) :
    Denotes rows entry
      ⟨statement.opcode, statement.span, UInt64.ofNat (place rows token.text),
        statement.line + 1⟩ := by
  rcases spells.operands_of_reference refers with ⟨is_name, shapes⟩
  have target_states : (UInt64.ofNat (place rows token.text)).toNat =
      if isLabelName token.text then place rows token.text else Decimal.value token.text := by
    rw [if_pos is_name]
    exact UInt64.toNat_ofNat_of_lt small
  rcases shapes with ⟨shape, words⟩ | ⟨shape, word, words, span_word⟩
  · constructor
    · exact spells.mnemonic
    · rw [shape, words]
      exact List.Forall₂.cons target_states List.Forall₂.nil
    · exact spells.span_zero
    · simp [shape]
    · rw [spells.line]
  · constructor
    · exact spells.mnemonic
    · rw [shape, words]
      exact List.Forall₂.cons span_word.2 (List.Forall₂.cons target_states List.Forall₂.nil)
    · exact spells.span_zero
    · simp [shape]
    · rw [spells.line]

/-- What a statement becomes when its label is looked up. -/
theorem resolve_cases {labels : List Label} {statement : Statement} {instruction : Instruction}
    (resolved : statement.resolve labels = .ok instruction) :
    (statement.reference = none ∧ instruction =
        ⟨statement.opcode, statement.span, statement.magnitude, statement.line + 1⟩) ∨
      ∃ token label, statement.reference = some token ∧ label ∈ labels ∧
        label.name = token.text ∧ instruction =
          ⟨statement.opcode, statement.span, UInt64.ofNat label.index, statement.line + 1⟩ := by
  simp only [resolve] at resolved
  split at resolved
  · rename_i no_reference
    exact Or.inl ⟨no_reference, by simpa using resolved.symm⟩
  · rename_i token refers
    split at resolved
    · rename_i label found
      have same_name : label.name = token.text := by
        simpa using List.find?_some found
      exact Or.inr ⟨token, label, refers, List.mem_of_find?_eq_some found, same_name,
        by simpa using resolved.symm⟩
    · cases resolved

theorem exists_resolve {labels : List Label} {statement : Statement}
    (found : ∀ token, statement.reference = some token →
      token.text ∈ labels.map Label.name) :
    ∃ instruction, statement.resolve labels = .ok instruction := by
  simp only [resolve]
  split
  · exact ⟨_, rfl⟩
  · rename_i token refers
    split
    · exact ⟨_, rfl⟩
    · rename_i missing
      rcases List.mem_map.mp (found token refers) with ⟨label, label_mem, same_name⟩
      have passed_over := List.find?_eq_none.mp missing label label_mem
      simp [same_name] at passed_over

theorem mem_names_of_resolve {labels : List Label} {statement : Statement}
    {instruction : Instruction} (resolved : statement.resolve labels = .ok instruction)
    {token : Token} (refers : statement.reference = some token) :
    token.text ∈ labels.map Label.name := by
  rcases resolve_cases resolved with ⟨no_reference, -⟩ | ⟨other, label, refers_other, label_mem,
    same_name, -⟩
  · rw [refers] at no_reference
    cases no_reference
  · rw [refers, Option.some.injEq] at refers_other
    subst refers_other
    exact List.mem_map.mpr ⟨label, label_mem, same_name⟩

theorem Spells.denotes_of_resolve {rows : List (List Bytes)} {labels : List Label}
    {entry : Entry} {statement : Statement} {instruction : Instruction}
    (spells : Spells entry statement)
    (label_places : ∀ label ∈ labels, label.index = place rows label.name)
    (small : ∀ word ∈ entry.operands, isLabelName word = true → place rows word < UInt64.size)
    (resolved : statement.resolve labels = .ok instruction) :
    Denotes rows entry instruction := by
  rcases resolve_cases resolved with ⟨no_reference, rfl⟩ | ⟨token, label, refers, label_mem,
    same_name, rfl⟩
  · exact spells.denotes_of_none rows no_reference
  · rcases spells.operands_of_reference refers with ⟨is_name, shapes⟩
    have word_mem : token.text ∈ entry.operands := by
      rcases shapes with ⟨-, words⟩ | ⟨-, word, words, -⟩ <;> simp [words]
    rw [label_places label label_mem, same_name]
    exact spells.denotes_of_some rows refers (small token.text word_mem is_name)

theorem Spells.isSpelled_of_resolve {labels : List Label} {entry : Entry} {statement : Statement}
    {instruction : Instruction} (spells : Spells entry statement)
    (resolved : statement.resolve labels = .ok instruction) : instruction.IsSpelled := by
  rcases resolve_cases resolved with ⟨-, rfl⟩ | ⟨token, label, refers, -, -, rfl⟩
  · exact ⟨spells.span_zero, spells.magnitude_zero⟩
  · refine ⟨spells.span_zero, ?_⟩
    intro _ no_target
    rw [spells.reference_none no_target] at refers
    cases refers

end Statement

end SpanMachine
