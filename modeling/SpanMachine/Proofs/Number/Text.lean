import Mathlib.Data.List.Induction
import SpanMachine.Proofs.Bytes.Decimal
import SpanMachine.Proofs.Number.Storable

/-!
# Printed fractions and how they are read

The text of a fraction is an optional minus sign, the digits of the numerator and, unless
the denominator is one, a slash and the digits of the denominator. Reading takes the same
text apart at the same places. The digits of each part denote less than the ceiling of
bounded reading, also those of the least numerator, whose sign is set only afterwards; and
reducing lowest terms changes nothing. So the fraction that is read is the one that was
printed.
-/

namespace SpanMachine

namespace Byte

/-- The bytes of which fractions are printed. -/
def isNumeric (byte : UInt8) : Bool :=
  isDigit byte || byte == minus || byte == slash

theorem isNumeric_iff {byte : UInt8} :
    isNumeric byte = true ↔ isDigit byte = true ∨ byte = minus ∨ byte = slash := by
  simp [isNumeric, or_assoc]

theorem isSpace_of_isNumeric {byte : UInt8} (numeric : isNumeric byte = true) :
    isSpace byte = false := by
  rcases isNumeric_iff.mp numeric with digit | rfl | rfl
  · exact isSpace_of_isDigit digit
  · rfl
  · rfl

end Byte

namespace Bytes

theorem cutAt_append {mark : UInt8} {first : Bytes} (absent : mark ∉ first) (second : Bytes) :
    (first ++ mark :: second).cutAt mark = (first, second) := by
  have passes : ∀ byte ∈ first, (byte != mark) = true := by
    intro byte byteMem
    rw [bne_iff_ne]
    rintro rfl
    exact absent byteMem
  rw [cutAt, List.takeWhile_append_of_pos passes, List.dropWhile_append_of_pos passes]
  simp

end Bytes

namespace Range

/-- Below the ceiling digit-by-digit reading finds the value of the digits. -/
theorem foldlM_appendDigit?_of_value_le {text : Bytes}
    (digits : ∀ byte ∈ text, Byte.isDigit byte = true)
    (below : Decimal.value text ≤ ceiling) :
    text.foldlM appendDigit? 0 = some (Decimal.value text) := by
  -- The value grows at the last digit, and so does what has been read.
  induction text using List.reverseRecOn with
  | nil => rfl
  | append_singleton text byte ih =>
      rw [Decimal.value_append_singleton] at below ⊢
      have front_digits : ∀ byte ∈ text, Byte.isDigit byte = true := by
        intro byte byteMem
        exact digits byte (List.mem_append_left _ byteMem)
      have last_digit : Byte.isDigit byte = true := by
        apply digits
        simp
      have front_read := ih front_digits (by omega)
      rw [List.foldlM_append, front_read]
      simp [appendDigit?, last_digit, below]

theorem readDigits?_of_isNumeral {range : Range} {text : Bytes}
    (numeral : Decimal.isNumeral text = true)
    (below : range = .bounded → Decimal.value text ≤ ceiling) :
    range.readDigits? text = some (Decimal.value text) := by
  cases range with
  | bounded =>
      apply foldlM_appendDigit?_of_value_le
      · simp only [Decimal.isNumeral, Bool.and_eq_true, List.all_eq_true] at numeral
        exact numeral.2
      · exact below rfl
  | unbounded => simp only [readDigits?, numeral, if_true]

theorem readDigits?_ofNat {range : Range} {number : Nat}
    (below : range = .bounded → number ≤ ceiling) :
    range.readDigits? (Decimal.ofNat number) = some number := by
  have read := readDigits?_of_isNumeral (Decimal.isNumeral_ofNat number)
    (by rw [Decimal.value_ofNat]; exact below)
  rw [Decimal.value_ofNat] at read
  exact read

end Range

namespace Numeral

theorem digits?_of_isNumeral {text : Bytes} (numeral : Decimal.isNumeral text = true) :
    digits? text = some (text, [Decimal.digit 1]) := by
  have no_slash : Byte.slash ∉ text := Decimal.not_mem_of_isNumeral numeral rfl
  have no_dot : Byte.dot ∉ text := Decimal.not_mem_of_isNumeral numeral rfl
  simp [digits?, no_slash, no_dot, numeral]

theorem digits?_slash {num den : Bytes} (num_numeral : Decimal.isNumeral num = true)
    (den_numeral : Decimal.isNumeral den = true) :
    digits? (num ++ Byte.slash :: den) = some (num, den) := by
  have no_slash : Byte.slash ∉ num := Decimal.not_mem_of_isNumeral num_numeral rfl
  simp [digits?, Bytes.cutAt_append no_slash, num_numeral, den_numeral]

theorem splitSign_of_isDigit {text : Bytes} {byte : UInt8} (first : text.head? = some byte)
    (digit : Byte.isDigit byte = true) : splitSign text = (false, text) := by
  cases text with
  | nil => cases first
  | cons head rest =>
      cases first
      have not_minus : byte ≠ Byte.minus := by
        rintro rfl
        cases digit
      have not_plus : byte ≠ Byte.plus := by
        rintro rfl
        cases digit
      simp [splitSign, not_minus, not_plus]

end Numeral

namespace Fraction

/-- The text of a fraction without its sign. -/
def magnitudeText (value : Fraction) : Bytes :=
  Decimal.ofNat value.num.natAbs ++
    if value.den = 1 then [] else Byte.slash :: Decimal.ofNat value.den

theorem text_eq_magnitudeText (value : Fraction) :
    value.text =
      if value.num < 0 then Byte.minus :: value.magnitudeText else value.magnitudeText := by
  rcases value with ⟨num, den⟩
  by_cases whole : den = 1
  · simp [text, toInt?, magnitudeText, whole, Decimal.ofInt]
  · by_cases negative : num < 0
    · simp [text, toInt?, magnitudeText, whole, Decimal.ofInt, negative]
    · simp [text, toInt?, magnitudeText, whole, Decimal.ofInt, negative]

theorem isNumeric_of_mem_text {value : Fraction} {byte : UInt8} (byteMem : byte ∈ value.text) :
    Byte.isNumeric byte = true := by
  have numeric_of_mem_ofNat {number : Nat} (digitMem : byte ∈ Decimal.ofNat number) :
      Byte.isNumeric byte = true :=
    Byte.isNumeric_iff.mpr (.inl (Decimal.isDigit_of_mem_ofNat digitMem))
  have numeric_of_mem_magnitudeText (partMem : byte ∈ value.magnitudeText) :
      Byte.isNumeric byte = true := by
    rcases List.mem_append.mp partMem with numMem | denMem
    · exact numeric_of_mem_ofNat numMem
    · split at denMem
      · cases denMem
      · rcases List.mem_cons.mp denMem with rfl | denMem
        · rfl
        · exact numeric_of_mem_ofNat denMem
  rw [text_eq_magnitudeText] at byteMem
  split at byteMem
  · rcases List.mem_cons.mp byteMem with rfl | partMem
    · rfl
    · exact numeric_of_mem_magnitudeText partMem
  · exact numeric_of_mem_magnitudeText byteMem

theorem exists_head?_magnitudeText (value : Fraction) :
    ∃ byte, value.magnitudeText.head? = some byte ∧ Byte.isDigit byte = true :=
  Decimal.exists_head?_of_isNumeral (Decimal.isNumeral_ofNat _) _

theorem text_ne_nil (value : Fraction) : value.text ≠ [] := by
  rcases value.exists_head?_magnitudeText with ⟨byte, first, -⟩
  rw [text_eq_magnitudeText]
  split
  · simp
  · intro empty
    rw [empty] at first
    cases first

theorem splitSign_text (value : Fraction) :
    Numeral.splitSign value.text = (decide (value.num < 0), value.magnitudeText) := by
  rw [text_eq_magnitudeText]
  split
  · rename_i negative
    simp [Numeral.splitSign, negative]
  · rename_i not_negative
    rcases value.exists_head?_magnitudeText with ⟨byte, first, digit⟩
    rw [Numeral.splitSign_of_isDigit first digit]
    simp [not_negative]

theorem digits?_magnitudeText (value : Fraction) :
    Numeral.digits? value.magnitudeText =
      some (Decimal.ofNat value.num.natAbs, Decimal.ofNat value.den) := by
  rw [magnitudeText]
  split
  · rename_i whole
    have one : Decimal.ofNat 1 = [Decimal.digit 1] := by
      rw [Decimal.ofNat, if_pos (by decide)]
    rw [List.append_nil, whole, one]
    exact Numeral.digits?_of_isNumeral (Decimal.isNumeral_ofNat _)
  · exact Numeral.digits?_slash (Decimal.isNumeral_ofNat _) (Decimal.isNumeral_ofNat _)

/-- Lowest terms that the range admits are already reduced. -/
theorem reduce_of_storable {range : Range} {value : Fraction} (storable : value.Storable range) :
    reduce range value.num value.den = ⟨value, false⟩ := by
  have not_negative : ¬((value.den : Int) < 0) := by omega
  have divisor_one : Int.gcd value.num value.den = 1 := storable.normal.coprime
  simp [reduce, orient, Range.gcd_eq, not_negative, divisor_one, storable.fits.num,
    storable.fits.den]

/-- Reading undoes printing. -/
theorem read?_text {range : Range} {value : Fraction} (storable : value.Storable range) :
    Numeral.read? range value.text = some value := by
  have num_below : range = .bounded → value.num.natAbs ≤ Range.ceiling := by
    rintro rfl
    have num_le := Wide.natAbs_num_le storable.fits
    simp only [Range.ceiling]
    omega
  have den_below : range = .bounded → value.den ≤ Range.ceiling := by
    rintro rfl
    have den_le := Wide.natAbs_den_le storable.fits
    simp only [Range.ceiling]
    omega
  have den_ne_zero : value.den ≠ 0 := Nat.ne_of_gt storable.normal.den_pos
  have signed : (if decide (value.num < 0) = true then -(value.num.natAbs : Int)
      else (value.num.natAbs : Int)) = value.num := by
    simp only [decide_eq_true_eq]
    split <;> omega
  rw [Numeral.read?_eq_some_iff, splitSign_text]
  refine ⟨_, _, value.num.natAbs, value.den, digits?_magnitudeText value,
    Range.readDigits?_ofNat num_below, Range.readDigits?_ofNat den_below, den_ne_zero, ?_⟩
  rw [signed]
  exact reduce_of_storable storable

end Fraction

end SpanMachine
