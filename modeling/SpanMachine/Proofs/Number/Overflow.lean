import SpanMachine.Number.Numeral

/-!
# Overflow of bounded numbers

Literals, numerals and operators are all that depends on the range of a run. Given the
same operands, each of them answers alike in both ranges or is cursed in the bounded
one alone. Beyond that, an operator without bounds is cursed only by a zero divisor,
and then the bounded one is cursed too, whatever its left operand is.
-/

namespace SpanMachine

namespace Answer

theorem toOption_eq_some_iff {α : Type} {answer : Answer α} {value : α} :
    answer.toOption = some value ↔ answer = ⟨value, false⟩ := by
  rcases answer with ⟨stored, cursed⟩
  cases cursed <;> simp [toOption]

end Answer

namespace Range

theorem gcd_eq (range : Range) (a b : Int) : range.gcd a b = Int.gcd a b := by
  cases range with
  | bounded => exact remainderLoop_eq_gcd a.natAbs b.natAbs
  | unbounded => rfl

theorem appendDigit?_eq_some {sum result : Nat} {byte : UInt8}
    (appended : appendDigit? sum byte = some result) :
    result = 10 * sum + Decimal.digitValue byte := by
  unfold appendDigit? at appended
  split at appended
  · simpa using appended.symm
  · simp at appended

theorem le_ceiling_of_appendDigit? {sum result : Nat} {byte : UInt8}
    (appended : appendDigit? sum byte = some result) : result ≤ ceiling := by
  unfold appendDigit? at appended
  split at appended
  · rename_i accepted
    simp only [Bool.and_eq_true, decide_eq_true_eq] at accepted
    rw [Option.some.injEq] at appended
    exact appended ▸ accepted.2
  · cases appended

theorem foldlM_appendDigit?_eq_some {text : Bytes} {sum result : Nat}
    (read : text.foldlM appendDigit? sum = some result) :
    result = text.foldl (fun sum byte => 10 * sum + Decimal.digitValue byte) sum := by
  induction text generalizing sum with
  | nil => simpa using read.symm
  | cons byte rest ih =>
      rw [List.foldlM_cons] at read
      rcases Option.bind_eq_some_iff.mp read with ⟨next, appended, read_rest⟩
      rw [List.foldl_cons, ← appendDigit?_eq_some appended]
      exact ih read_rest

/-- What bounded reading makes of a numeral, unbounded reading makes of it too. -/
theorem readDigits?_unbounded_of_bounded {text : Bytes} {value : Nat}
    (numeral : Decimal.isNumeral text = true) (read : bounded.readDigits? text = some value) :
    unbounded.readDigits? text = some value := by
  have value_eq : value = Decimal.value text := foldlM_appendDigit?_eq_some read
  simp only [readDigits?, numeral, if_true, value_eq]

end Range

namespace Fraction

theorem reduce_unbounded (num den : Int) :
    (reduce .unbounded num den).cursed = false := by
  simp [reduce, Range.Admits]

theorem reduce_bounded (num den : Int) :
    reduce .bounded num den = reduce .unbounded num den ∨ reduce .bounded num den = curse := by
  simp only [reduce, Range.gcd_eq]
  split
  · left
    simp [Range.Admits]
  · right
    rfl

/-- Without bounds only a division by zero is cursed. -/
theorem combine_unbounded_cursed_iff (operator : Operator) (left right : Fraction) :
    (combine .unbounded operator left right).cursed = true ↔
      operator = .div ∧ right.num = 0 := by
  unfold combine
  split
  · rename_i by_zero
    simp [by_zero, curse]
  · rename_i not_by_zero
    simp [reduce_unbounded, not_by_zero]

theorem combine_of_div_zero (range : Range) (left : Fraction) {right : Fraction}
    (divisor_zero : right.num = 0) : combine range .div left right = curse := by
  simp [combine, divisor_zero]

/-- From the same operands the bounded answer is the unbounded one, or only it is cursed. -/
theorem combine_bounded (operator : Operator) (left right : Fraction) :
    combine .bounded operator left right = combine .unbounded operator left right ∨
      (combine .unbounded operator left right).curses <
        (combine .bounded operator left right).curses := by
  by_cases by_zero : operator = .div ∧ right.num = 0
  · left
    rw [by_zero.1, combine_of_div_zero _ _ by_zero.2, combine_of_div_zero _ _ by_zero.2]
  · simp only [combine, by_zero, if_false]
    rcases reduce_bounded (combined left right operator).1 (combined left right operator).2
      with equal | overflow
    · exact Or.inl equal
    · right
      rw [overflow, Answer.curses, reduce_unbounded]
      decide

/-- Whatever its left operand, a bounded operation is cursed where an unbounded one is. -/
theorem curses_combine_le (operator : Operator) (left left' right : Fraction) :
    (combine .unbounded operator left right).curses ≤
      (combine .bounded operator left' right).curses := by
  by_cases cursed : (combine .unbounded operator left right).cursed = true
  · rcases (combine_unbounded_cursed_iff operator left right).mp cursed with ⟨rfl, divisor_zero⟩
    have same : combine .unbounded .div left right = combine .bounded .div left' right := by
      rw [combine_of_div_zero _ _ divisor_zero, combine_of_div_zero _ _ divisor_zero]
    exact Nat.le_of_eq (congrArg Answer.curses same)
  · simp [Answer.curses, cursed]

theorem ofMagnitude_bounded (magnitude : UInt64) :
    ofMagnitude .bounded magnitude = ofMagnitude .unbounded magnitude ∨
      (ofMagnitude .unbounded magnitude).curses < (ofMagnitude .bounded magnitude).curses := by
  by_cases admitted : Range.bounded.Admits magnitude.toNat
  · left
    simp only [ofMagnitude, admitted, if_true]
    simp [Range.Admits]
  · right
    simp only [ofMagnitude, admitted, if_false]
    simp [Range.Admits, curse, Answer.curses]

end Fraction

namespace Numeral

theorem digits?_isNumeral {text num den : Bytes} (split_text : digits? text = some (num, den)) :
    Decimal.isNumeral num = true ∧ Decimal.isNumeral den = true := by
  unfold digits? at split_text
  split at split_text
  · simp only [Option.ite_none_right_eq_some, Option.some.injEq, Prod.mk.injEq,
      Bool.and_eq_true] at split_text
    rcases split_text with ⟨numerals, rfl, rfl⟩
    exact numerals
  · split at split_text
    · simp only [Option.ite_none_right_eq_some, Option.some.injEq, Prod.mk.injEq,
        Bool.and_eq_true] at split_text
      rcases split_text with ⟨⟨whole, places⟩, rfl, rfl⟩
      simp only [Decimal.isNumeral, Bool.and_eq_true] at whole places ⊢
      refine ⟨⟨?_, ?_⟩, ?_, ?_⟩
      · simp at whole ⊢
        simp [whole.1]
      · simp [whole.2, places.2]
      · simp
      · simp [Decimal.digit, Byte.isDigit]
    · simp only [Option.ite_none_right_eq_some, Option.some.injEq, Prod.mk.injEq] at split_text
      rcases split_text with ⟨numeral, rfl, rfl⟩
      exact ⟨numeral, by decide⟩

theorem read?_eq_some_iff {range : Range} {text : Bytes} {value : Fraction} :
    read? range text = some value ↔
      ∃ num den numValue denValue, digits? (splitSign text).2 = some (num, den) ∧
        range.readDigits? num = some numValue ∧ range.readDigits? den = some denValue ∧
        denValue ≠ 0 ∧
        Fraction.reduce range (if (splitSign text).1 then -numValue else numValue) denValue =
          ⟨value, false⟩ := by
  have unfolded : read? range text =
      (digits? (splitSign text).2).bind fun digits =>
        (range.readDigits? digits.1).bind fun num =>
          (range.readDigits? digits.2).bind fun den =>
            if den = 0 then none
            else (Fraction.reduce range (if (splitSign text).1 then -num else num) den).toOption :=
    rfl
  simp only [unfolded, Option.bind_eq_some_iff, Prod.exists, Option.ite_none_left_eq_some,
    Answer.toOption_eq_some_iff]
  constructor
  · rintro ⟨num, den, digits, numValue, read_num, denValue, read_den, den_ne_zero, reduced⟩
    exact ⟨num, den, numValue, denValue, digits, read_num, read_den, den_ne_zero, reduced⟩
  · rintro ⟨num, den, numValue, denValue, digits, read_num, read_den, den_ne_zero, reduced⟩
    exact ⟨num, den, digits, numValue, read_num, denValue, read_den, den_ne_zero, reduced⟩

/-- A numeral that bounded numbers can hold means the same to unbounded ones. -/
theorem read?_unbounded_of_bounded {text : Bytes} {value : Fraction}
    (read : read? .bounded text = some value) : read? .unbounded text = some value := by
  rw [read?_eq_some_iff] at read ⊢
  rcases read with ⟨num, den, numValue, denValue, digits, read_num, read_den, den_ne_zero, reduced⟩
  have numerals := digits?_isNumeral digits
  refine ⟨num, den, numValue, denValue, digits, ?_, ?_, den_ne_zero, ?_⟩
  · exact Range.readDigits?_unbounded_of_bounded numerals.1 read_num
  · exact Range.readDigits?_unbounded_of_bounded numerals.2 read_den
  · rcases Fraction.reduce_bounded (if (splitSign text).1 then -numValue else numValue) denValue
      with equal | overflow
    · rw [← equal]
      exact reduced
    · rw [overflow] at reduced
      simp [Fraction.curse] at reduced

end Numeral

end SpanMachine
