import SpanMachine.Bytes.Decimal

/-!
# Character classes and decimal text

The classes of bytes are ranges of numbers, and letters, digits and whitespace have no
byte in common.

The text of a natural number is a numeral, and its value is the number again. Both
follow the recursion by which the text is made: the last digit is the remainder of a
division by ten.
-/

namespace SpanMachine

namespace Byte

theorem isDigit_iff {byte : UInt8} :
    isDigit byte = true ↔ 0x30 ≤ byte.toNat ∧ byte.toNat ≤ 0x39 := by
  simp [isDigit, UInt8.le_iff_toNat_le]

theorem isLetter_iff {byte : UInt8} :
    isLetter byte = true ↔
      (0x41 ≤ byte.toNat ∧ byte.toNat ≤ 0x5A) ∨ (0x61 ≤ byte.toNat ∧ byte.toNat ≤ 0x7A) := by
  simp [isLetter, UInt8.le_iff_toNat_le]

theorem isSpace_iff {byte : UInt8} :
    isSpace byte = true ↔ byte.toNat = 0x20 ∨ (0x09 ≤ byte.toNat ∧ byte.toNat ≤ 0x0D) := by
  simp [isSpace, UInt8.le_iff_toNat_le, ← UInt8.toNat_inj]

theorem isDigit_of_isLetter {byte : UInt8} (is_letter : isLetter byte = true) :
    isDigit byte = false := by
  rw [isLetter_iff] at is_letter
  rw [← Bool.not_eq_true, isDigit_iff]
  omega

theorem isSpace_of_isLetter {byte : UInt8} (is_letter : isLetter byte = true) :
    isSpace byte = false := by
  rw [isLetter_iff] at is_letter
  rw [← Bool.not_eq_true, isSpace_iff]
  omega

theorem isSpace_of_isDigit {byte : UInt8} (is_digit : isDigit byte = true) :
    isSpace byte = false := by
  rw [isDigit_iff] at is_digit
  rw [← Bool.not_eq_true, isSpace_iff]
  omega

end Byte

namespace Decimal

theorem digitValue_digit {number : Nat} (small : number < 10) :
    digitValue (digit number) = number := by
  simp only [digitValue, digit, UInt8.toNat_ofNat']
  omega

theorem isDigit_digit {number : Nat} (small : number < 10) :
    Byte.isDigit (digit number) = true := by
  rw [Byte.isDigit_iff, digit, UInt8.toNat_ofNat']
  omega

theorem value_append_singleton (text : Bytes) (byte : UInt8) :
    value (text ++ [byte]) = 10 * value text + digitValue byte := by
  simp [value]

theorem value_append_digit {text : Bytes} {number : Nat} (small : number < 10) :
    value (text ++ [digit number]) = 10 * value text + number := by
  rw [value_append_singleton, digitValue_digit small]

@[simp]
theorem value_ofNat (number : Nat) : value (ofNat number) = number := by
  induction number using ofNat.induct with
  | case1 number small =>
      rw [ofNat, if_pos small]
      simpa [value] using digitValue_digit small
  | case2 number large ih =>
      rw [ofNat, if_neg large, value_append_singleton, ih,
        digitValue_digit (Nat.mod_lt _ (by decide))]
      exact Nat.div_add_mod number 10

theorem isDigit_of_mem_ofNat {number : Nat} {byte : UInt8} (byte_mem : byte ∈ ofNat number) :
    Byte.isDigit byte = true := by
  induction number using ofNat.induct with
  | case1 number small =>
      rw [ofNat, if_pos small, List.mem_singleton] at byte_mem
      rw [byte_mem]
      exact isDigit_digit small
  | case2 number large ih =>
      rw [ofNat, if_neg large, List.mem_append, List.mem_singleton] at byte_mem
      rcases byte_mem with byte_mem | rfl
      · exact ih byte_mem
      · exact isDigit_digit (Nat.mod_lt _ (by decide))

theorem ofNat_ne_nil (number : Nat) : ofNat number ≠ [] := by
  rw [ofNat]
  split <;> simp

theorem isNumeral_iff {text : Bytes} :
    isNumeral text = true ↔ text ≠ [] ∧ ∀ byte ∈ text, Byte.isDigit byte = true := by
  simp [isNumeral]

theorem not_mem_of_isNumeral {text : Bytes} (numeral : isNumeral text = true) {mark : UInt8}
    (not_digit : Byte.isDigit mark = false) : mark ∉ text := by
  intro mark_mem
  rw [(isNumeral_iff.mp numeral).2 mark mark_mem] at not_digit
  cases not_digit

theorem exists_head?_of_isNumeral {text : Bytes} (numeral : isNumeral text = true)
    (rest : Bytes) : ∃ byte, (text ++ rest).head? = some byte ∧ Byte.isDigit byte = true := by
  rcases isNumeral_iff.mp numeral with ⟨nonempty, digits⟩
  rcases List.exists_cons_of_ne_nil nonempty with ⟨byte, tail, rfl⟩
  exact ⟨byte, rfl, digits byte List.mem_cons_self⟩

theorem isNumeral_ofNat (number : Nat) : isNumeral (ofNat number) = true := by
  rw [isNumeral_iff]
  exact ⟨ofNat_ne_nil number, fun _ => isDigit_of_mem_ofNat⟩

end Decimal

end SpanMachine
