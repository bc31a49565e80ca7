import SpanMachine.Proofs.Number.Text

/-!
# Which texts are read as numbers

A number is spelt with digits alone, as a quotient of two strings of digits or with digits
before and after a point, and a sign may stand in front. The theory of reading is that these
texts are read and no others: a sign in the middle, a point beside a slash or a missing
digit leave no way to take a text apart.

What is read is the number that the spelling denotes, in lowest terms. Unbounded reading has
no other condition. Bounded reading asks twice for room, first for the digits, which must not
pass the ceiling although the fraction may be small, and then for the lowest terms.
-/

namespace SpanMachine

namespace Bytes

theorem cutAt_joined {text : Bytes} {mark : UInt8} (mark_mem : mark ∈ text) :
    (text.cutAt mark).1 ++ mark :: (text.cutAt mark).2 = text := by
  rcases List.eq_append_cons_of_mem mark_mem with ⟨first, second, rfl, absent⟩
  rw [cutAt_append absent]

end Bytes

namespace Decimal

theorem isNumeral_append {first second : Bytes} (first_numeral : isNumeral first = true)
    (second_numeral : isNumeral second = true) : isNumeral (first ++ second) = true := by
  rw [isNumeral_iff] at first_numeral second_numeral ⊢
  refine ⟨List.append_ne_nil_of_left_ne_nil first_numeral.1 _, ?_⟩
  intro byte byteMem
  rcases List.mem_append.mp byteMem with byteMem | byteMem
  · exact first_numeral.2 byte byteMem
  · exact second_numeral.2 byte byteMem

/-- Each zero at the end of a numeral multiplies its value by ten. -/
theorem value_append_zeros (text : Bytes) (count : Nat) :
    value (text ++ List.replicate count (digit 0)) = value text * 10 ^ count := by
  induction count with
  | zero => simp
  | succ count ih =>
      rw [List.replicate_succ', ← List.append_assoc, value_append_digit (by decide), ih,
        Nat.add_zero, Nat.mul_comm, Nat.mul_assoc, Nat.pow_succ]

theorem digitValue_eq_zero_iff {byte : UInt8} (is_digit : Byte.isDigit byte = true) :
    digitValue byte = 0 ↔ byte = digit 0 := by
  rw [Byte.isDigit_iff] at is_digit
  rw [← UInt8.toNat_inj]
  simp only [digitValue, digit, UInt8.toNat_ofNat']
  omega

/-- Digits denote zero when all of them are zeros. -/
theorem value_eq_zero_iff {text : Bytes} (digits : ∀ byte ∈ text, Byte.isDigit byte = true) :
    value text = 0 ↔ ∀ byte ∈ text, byte = digit 0 := by
  induction text using List.reverseRecOn with
  | nil => simp [value]
  | append_singleton text byte ih =>
      have front_digits : ∀ byte ∈ text, Byte.isDigit byte = true := by
        intro byte byteMem
        exact digits byte (List.mem_append_left _ byteMem)
      have last_digit : Byte.isDigit byte = true := by
        apply digits
        simp
      rw [value_append_singleton, Nat.add_eq_zero_iff, Nat.mul_eq_zero, ih front_digits,
        digitValue_eq_zero_iff last_digit]
      simp [or_imp, forall_and]

end Decimal

namespace Range

theorem foldlM_appendDigit?_le_ceiling {text : Bytes} {sum result : Nat}
    (below : sum ≤ ceiling) (read : text.foldlM appendDigit? sum = some result) :
    result ≤ ceiling := by
  induction text generalizing sum with
  | nil =>
      cases read
      exact below
  | cons byte rest ih =>
      rw [List.foldlM_cons] at read
      rcases Option.bind_eq_some_iff.mp read with ⟨next, appended, read_rest⟩
      exact ih (le_ceiling_of_appendDigit? appended) read_rest

/-- A numeral is read unless the ceiling is in the way. -/
theorem readDigits?_eq_some_iff {range : Range} {text : Bytes} {number : Nat}
    (numeral : Decimal.isNumeral text = true) :
    range.readDigits? text = some number ↔
      Decimal.value text = number ∧ (range = .bounded → Decimal.value text ≤ ceiling) := by
  constructor
  · intro read
    cases range with
    | bounded =>
        have value_eq : number = Decimal.value text := foldlM_appendDigit?_eq_some read
        have below := foldlM_appendDigit?_le_ceiling (Nat.zero_le _) read
        exact ⟨value_eq.symm, fun _ => value_eq ▸ below⟩
    | unbounded =>
        simp only [readDigits?, numeral, if_true, Option.some.injEq] at read
        refine ⟨read, ?_⟩
        intro bounded
        cases bounded
  · rintro ⟨rfl, below⟩
    exact readDigits?_of_isNumeral numeral below

end Range

namespace Fraction

theorem reduce_eq_iff {range : Range} {num den : Int} {value : Fraction}
    (den_ne_zero : den ≠ 0) :
    reduce range num den = ⟨value, false⟩ ↔
      range.Admits ((num : ℚ) / den).num ∧ range.Admits ((num : ℚ) / den).den ∧
        value = ofRat (num / den) := by
  rw [reduce_eq_ofRat range num den_ne_zero]
  split
  · rename_i admitted
    simp [admitted.1, admitted.2, eq_comm]
  · rename_i refused
    constructor
    · intro cursed
      cases cursed
    · rintro ⟨num_admitted, den_admitted, -⟩
      exact absurd ⟨num_admitted, den_admitted⟩ refused

end Fraction

namespace Numeral

/-- How a number is spelt, its sign apart. -/
inductive Spelling where
  | integer (digits : Bytes)
  | quotient (num den : Bytes)
  | decimal (whole places : Bytes)

namespace Spelling

def text : Spelling → Bytes
  | integer digits => digits
  | quotient num den => num ++ Byte.slash :: den
  | decimal whole places => whole ++ Byte.dot :: places

/-- All parts are strings of digits, and none of them is empty. -/
def HasDigits : Spelling → Prop
  | integer digits => Decimal.isNumeral digits = true
  | quotient num den => Decimal.isNumeral num = true ∧ Decimal.isNumeral den = true
  | decimal whole places => Decimal.isNumeral whole = true ∧ Decimal.isNumeral places = true

/-- The digits after a slash are not all zeros. -/
def Divides : Spelling → Prop
  | integer _ => True
  | quotient _ den => ∃ byte ∈ den, byte ≠ Decimal.digit 0
  | decimal _ _ => True

/-- The digits that are read for the numerator. -/
def numDigits : Spelling → Bytes
  | integer digits => digits
  | quotient num _ => num
  | decimal whole places => whole ++ places

/-- The number that is denoted, times the denominator. -/
def num (spelling : Spelling) : Nat :=
  Decimal.value spelling.numDigits

def den : Spelling → Nat
  | integer _ => 1
  | quotient _ den => Decimal.value den
  | decimal _ places => 10 ^ places.length

/-- The rational number that a spelling denotes, under a minus sign or not. -/
def number (spelling : Spelling) (negative : Bool) : ℚ :=
  (if negative then -(spelling.num : ℚ) else spelling.num) / spelling.den

/-- The digits that are read for the denominator. -/
def denDigits : Spelling → Bytes
  | integer _ => [Decimal.digit 1]
  | quotient _ den => den
  | decimal _ places => Decimal.digit 1 :: List.replicate places.length (Decimal.digit 0)

theorem value_denDigits (spelling : Spelling) :
    Decimal.value spelling.denDigits = spelling.den := by
  cases spelling with
  | integer => rfl
  | quotient => rfl
  | decimal whole places =>
      have scaled := Decimal.value_append_zeros [Decimal.digit 1] places.length
      have one : Decimal.value [Decimal.digit 1] = 1 := rfl
      rw [one, Nat.one_mul] at scaled
      exact scaled

variable {spelling : Spelling}

theorem isNumeral_numDigits (digits : spelling.HasDigits) :
    Decimal.isNumeral spelling.numDigits = true := by
  cases spelling with
  | integer => exact digits
  | quotient => exact digits.1
  | decimal => exact Decimal.isNumeral_append digits.1 digits.2

theorem isNumeral_denDigits (digits : spelling.HasDigits) :
    Decimal.isNumeral spelling.denDigits = true := by
  cases spelling with
  | integer => rfl
  | quotient => exact digits.2
  | decimal whole places =>
      rw [Decimal.isNumeral_iff]
      refine ⟨List.cons_ne_nil _ _, ?_⟩
      intro byte byteMem
      rcases List.mem_cons.mp byteMem with rfl | byteMem
      · rfl
      · rw [List.eq_of_mem_replicate byteMem]
        rfl

theorem den_ne_zero_iff (digits : spelling.HasDigits) : spelling.den ≠ 0 ↔ spelling.Divides := by
  cases spelling with
  | integer => exact iff_of_true Nat.one_ne_zero trivial
  | quotient num den =>
      rw [Spelling.den, Divides, ne_eq,
        Decimal.value_eq_zero_iff (Decimal.isNumeral_iff.mp digits.2).2]
      simp
  | decimal => exact iff_of_true (Nat.pow_pos (by decide)).ne' trivial

theorem exists_head?_text (digits : spelling.HasDigits) :
    ∃ byte, spelling.text.head? = some byte ∧ Byte.isDigit byte = true := by
  cases spelling with
  | integer text =>
      have head := Decimal.exists_head?_of_isNumeral digits []
      rw [List.append_nil] at head
      exact head
  | quotient => exact Decimal.exists_head?_of_isNumeral digits.1 _
  | decimal => exact Decimal.exists_head?_of_isNumeral digits.1 _

end Spelling

theorem digits?_dot {whole places : Bytes} (whole_numeral : Decimal.isNumeral whole = true)
    (places_numeral : Decimal.isNumeral places = true) :
    digits? (whole ++ Byte.dot :: places) =
      some (whole ++ places,
        Decimal.digit 1 :: List.replicate places.length (Decimal.digit 0)) := by
  have slash_not_mem_whole : Byte.slash ∉ whole :=
    Decimal.not_mem_of_isNumeral whole_numeral rfl
  have slash_not_mem_places : Byte.slash ∉ places :=
    Decimal.not_mem_of_isNumeral places_numeral rfl
  have dot_not_mem : Byte.dot ∉ whole := Decimal.not_mem_of_isNumeral whole_numeral rfl
  have slash_ne_dot : Byte.slash ≠ Byte.dot := by decide
  simp [digits?, slash_not_mem_whole, slash_not_mem_places, slash_ne_dot,
    Bytes.cutAt_append dot_not_mem, whole_numeral, places_numeral]

theorem digits?_text {spelling : Spelling} (digits : spelling.HasDigits) :
    digits? spelling.text = some (spelling.numDigits, spelling.denDigits) := by
  cases spelling with
  | integer => exact digits?_of_isNumeral digits
  | quotient => exact digits?_slash digits.1 digits.2
  | decimal => exact digits?_dot digits.1 digits.2

/-- A text from which digits are taken is spelt in one of the three ways. -/
theorem exists_spelling {text : Bytes} {digits : Bytes × Bytes}
    (split_text : digits? text = some digits) :
    ∃ spelling : Spelling, spelling.HasDigits ∧ spelling.text = text := by
  unfold digits? at split_text
  split at split_text
  · rename_i slash
    simp only [Option.ite_none_right_eq_some, Bool.and_eq_true] at split_text
    refine ⟨.quotient _ _, split_text.1, ?_⟩
    exact Bytes.cutAt_joined (List.contains_iff_mem.mp slash)
  · split at split_text
    · rename_i dot
      simp only [Option.ite_none_right_eq_some, Bool.and_eq_true] at split_text
      refine ⟨.decimal _ _, split_text.1, ?_⟩
      exact Bytes.cutAt_joined (List.contains_iff_mem.mp dot)
    · simp only [Option.ite_none_right_eq_some] at split_text
      exact ⟨.integer text, split_text.1, rfl⟩

/-- A text that spells a number behind an optional sign. -/
inductive Written : Bytes → Bool → Spelling → Prop where
  | unsigned {spelling : Spelling} (digits : spelling.HasDigits) (divides : spelling.Divides) :
      Written spelling.text false spelling
  | plus {spelling : Spelling} (digits : spelling.HasDigits) (divides : spelling.Divides) :
      Written (Byte.plus :: spelling.text) false spelling
  | minus {spelling : Spelling} (digits : spelling.HasDigits) (divides : spelling.Divides) :
      Written (Byte.minus :: spelling.text) true spelling

theorem Written.splitSign_eq {text : Bytes} {negative : Bool} {spelling : Spelling}
    (written : Written text negative spelling) :
    splitSign text = (negative, spelling.text) ∧ spelling.HasDigits ∧ spelling.Divides := by
  cases written with
  | unsigned digits divides =>
      rcases spelling.exists_head?_text digits with ⟨byte, first, digit⟩
      exact ⟨splitSign_of_isDigit first digit, digits, divides⟩
  | plus digits divides => exact ⟨rfl, digits, divides⟩
  | minus digits divides => exact ⟨rfl, digits, divides⟩

theorem written_of_splitSign {text : Bytes} {spelling : Spelling} (digits : spelling.HasDigits)
    (divides : spelling.Divides) (body : spelling.text = (splitSign text).2) :
    Written text (splitSign text).1 spelling := by
  fun_cases splitSign text with
  | case1 =>
      simp only [splitSign] at body
      exact body ▸ .unsigned digits divides
  | case2 rest =>
      simp only [splitSign, if_true] at body
      exact body ▸ .minus digits divides
  | case3 rest not_minus =>
      simp only [splitSign, not_minus, if_false, if_true] at body
      exact body ▸ .plus digits divides
  | case4 byte rest not_minus not_plus =>
      simp only [splitSign, not_minus, not_plus, if_false] at body
      exact body ▸ .unsigned digits divides

theorem cast_signed (negative : Bool) (num : Nat) :
    ((if negative then -(num : Int) else num : Int) : ℚ) =
      if negative then -(num : ℚ) else num := by
  split <;> simp

/-- What is read from a text that spells a number. -/
theorem Written.read?_eq_some_iff {text : Bytes} {negative : Bool} {spelling : Spelling}
    (written : Written text negative spelling) {range : Range} {value : Fraction} :
    read? range text = some value ↔
      (range = .bounded → spelling.num ≤ Range.ceiling ∧ spelling.den ≤ Range.ceiling) ∧
        range.Admits (spelling.number negative).num ∧
        range.Admits (spelling.number negative).den ∧
        value = .ofRat (spelling.number negative) := by
  rcases written.splitSign_eq with ⟨sign_eq, digits, divides⟩
  have den_ne_zero : spelling.den ≠ 0 := (Spelling.den_ne_zero_iff digits).mpr divides
  have reduced_iff : Fraction.reduce range
      (if negative then -(spelling.num : Int) else spelling.num) spelling.den = ⟨value, false⟩ ↔
        range.Admits (spelling.number negative).num ∧
        range.Admits (spelling.number negative).den ∧
        value = .ofRat (spelling.number negative) := by
    rw [Fraction.reduce_eq_iff (Int.natCast_ne_zero.mpr den_ne_zero), cast_signed,
      Int.cast_natCast, ← Spelling.number]
  rw [Numeral.read?_eq_some_iff, sign_eq, digits?_text digits, ← reduced_iff]
  constructor
  · rintro ⟨num, den, numValue, denValue, digits_eq, read_num, read_den, -, reduced⟩
    cases digits_eq
    rw [Range.readDigits?_eq_some_iff (Spelling.isNumeral_numDigits digits)] at read_num
    rw [Range.readDigits?_eq_some_iff (Spelling.isNumeral_denDigits digits),
      Spelling.value_denDigits] at read_den
    rcases read_num with ⟨rfl, num_below⟩
    rcases read_den with ⟨rfl, den_below⟩
    exact ⟨fun bounded => ⟨num_below bounded, den_below bounded⟩, reduced⟩
  · rintro ⟨below, reduced⟩
    refine ⟨_, _, spelling.num, spelling.den, rfl, ?_, ?_, den_ne_zero, reduced⟩
    · rw [Range.readDigits?_eq_some_iff (Spelling.isNumeral_numDigits digits)]
      exact ⟨rfl, fun bounded => (below bounded).1⟩
    · rw [Range.readDigits?_eq_some_iff (Spelling.isNumeral_denDigits digits),
        Spelling.value_denDigits]
      exact ⟨rfl, fun bounded => (below bounded).2⟩

/-- Nothing is read from a text that spells no number. -/
theorem exists_written_of_read? {range : Range} {text : Bytes} {value : Fraction}
    (read : read? range text = some value) :
    ∃ negative spelling, Written text negative spelling := by
  rcases Numeral.read?_eq_some_iff.mp read with
    ⟨num, den, numValue, denValue, split_text, -, read_den, den_ne_zero, -⟩
  rcases exists_spelling split_text with ⟨spelling, digits, body⟩
  rw [← body, digits?_text digits] at split_text
  cases split_text
  have divides : spelling.Divides := by
    rw [Range.readDigits?_eq_some_iff (Spelling.isNumeral_denDigits digits),
      Spelling.value_denDigits] at read_den
    rw [← Spelling.den_ne_zero_iff digits, read_den.1]
    exact den_ne_zero
  exact ⟨_, spelling, written_of_splitSign digits divides body⟩

/--
A text is read exactly if it spells a number, and then the number it denotes is read. In a
bounded range both the digits and the lowest terms must be small enough, and collecting
the digits takes no step that 128 bits cannot hold.
-/
theorem read?_eq_some_iff_written (text : Bytes) (value : Fraction) :
    (read? .unbounded text = some value ↔
      ∃ negative spelling, Written text negative spelling ∧
        value = .ofRat (spelling.number negative)) ∧
    (read? .bounded text = some value ↔
      ∃ negative spelling, Written text negative spelling ∧
        spelling.num ≤ Range.ceiling ∧ spelling.den ≤ Range.ceiling ∧
        Range.bounded.Admits (spelling.number negative).num ∧
        Range.bounded.Admits (spelling.number negative).den ∧
        value = .ofRat (spelling.number negative)) ∧
    ∀ digits, Wide.readDigits? digits =
      some ((Range.bounded.readDigits? digits).map Int.ofNat) := by
  refine ⟨⟨?_, ?_⟩, ⟨?_, ?_⟩, Wide.readDigits?_eq⟩
  · intro read
    rcases exists_written_of_read? read with ⟨negative, spelling, written⟩
    exact ⟨negative, spelling, written, (written.read?_eq_some_iff.mp read).2.2.2⟩
  · rintro ⟨negative, spelling, written, value_eq⟩
    apply written.read?_eq_some_iff.mpr
    exact ⟨nofun, trivial, trivial, value_eq⟩
  · intro read
    rcases exists_written_of_read? read with ⟨negative, spelling, written⟩
    rcases written.read?_eq_some_iff.mp read with ⟨below, num_fits, den_fits, value_eq⟩
    exact ⟨negative, spelling, written, (below rfl).1, (below rfl).2, num_fits, den_fits, value_eq⟩
  · rintro ⟨negative, spelling, written, num_below, den_below, num_fits, den_fits, value_eq⟩
    apply written.read?_eq_some_iff.mpr
    exact ⟨fun _ => ⟨num_below, den_below⟩, num_fits, den_fits, value_eq⟩

-- The least number of the bounded range has no counterpart of the other sign.
example :
    read? .bounded (ascii "-09223372036854775808.00") = some ⟨-9223372036854775808, 1⟩ ∧
      read? .bounded (ascii "+09223372036854775808.00") = none := by
  decide +kernel

end Numeral

end SpanMachine
