import SpanMachine.Proofs.Number.Order

/-!
# Undoing an operation

An operation that was not cursed has answered with the exact result, so the operation that
undoes it has the first operand itself as its exact result. This operand is in lowest terms and
the range admits its parts, and nothing else is asked of an answer. The second operation is
therefore not cursed either, whatever the integers are that both of them form on the way.

Associativity is not the reason. It fails for bounded fractions, where a sum of three may be
cursed in one order and not in another.
-/

namespace SpanMachine

namespace Operator

/-- The operator that takes back another one with the same right operand. -/
def inverse : Operator → Operator
  | add => sub
  | sub => add
  | mul => div
  | div => mul

theorem inverse_apply_apply (operator : Operator) (left : ℚ) {right : ℚ}
    (right_ne_zero : operator = mul ∨ operator = div → right ≠ 0) :
    operator.inverse.apply (operator.apply left right) right = left := by
  cases operator with
  | add => exact add_sub_cancel_right left right
  | sub => exact sub_add_cancel left right
  | mul => exact mul_div_cancel_right₀ left (right_ne_zero (.inl rfl))
  | div => exact div_mul_cancel₀ left (right_ne_zero (.inr rfl))

end Operator

namespace Fraction

variable {range : Range} {left right value : Fraction}

theorem toRat_eq_zero_iff (normal : value.Normal) : value.toRat = 0 ↔ value = zero := by
  have zero_toRat : zero.toRat = 0 := by simp [toRat, zero]
  have zero_normal : zero.Normal := normal_ofInt 0
  rw [← zero_toRat, toRat_inj normal zero_normal]

/-- An answer that is not cursed is the exact one. -/
theorem Exact.toRat_eq {exact : ℚ} (answered : Exact range ⟨value, false⟩ exact) :
    value.toRat = exact := by
  by_cases admitted : range.Admits exact.num ∧ range.Admits exact.den
  · exact (answered.admitted admitted).2.2
  · have refused := answered.refused admitted
    simp at refused

/-- Where a storable fraction is the exact answer, it is the answer. -/
theorem Exact.eq_of_storable {answer : Answer Fraction} (answered : Exact range answer value.toRat)
    (storable : value.Storable range) : answer = ⟨value, false⟩ := by
  have lowest := ofRat_toRat storable.normal
  have num_eq : value.toRat.num = value.num := congrArg Fraction.num lowest
  have den_eq : value.toRat.den = value.den := congrArg Fraction.den lowest
  have admitted : range.Admits value.toRat.num ∧ range.Admits value.toRat.den := by
    rw [num_eq, den_eq]
    exact ⟨storable.fits.num, storable.fits.den⟩
  rcases answered.admitted admitted with ⟨not_cursed, normal, same_number⟩
  have same_value : answer.value = value := (toRat_inj normal storable.normal).mp same_number
  rw [← same_value, ← not_cursed]

theorem combine_inverse {operator : Operator} (left_storable : left.Storable range)
    (right_storable : right.Storable range)
    (right_ne_zero : operator = .mul ∨ operator = .div → right ≠ zero)
    (answered : combine range operator left right = ⟨value, false⟩) :
    combine range operator.inverse value right = ⟨left, false⟩ := by
  have value_storable : value.Storable range := by
    have storable := storable_combine left_storable right_storable operator
    rwa [answered] at storable
  have left_pos := left_storable.normal.den_pos
  have right_pos := right_storable.normal.den_pos
  have num_ne_zero : operator = .mul ∨ operator = .div → right.num ≠ 0 := by
    intro scaling num_zero
    exact right_ne_zero scaling ((num_eq_zero_iff right_storable.normal).mp num_zero)
  have forward : Exact range (combine range operator left right)
      (operator.apply left.toRat right.toRat) := by
    apply exact_combine range left_pos right_pos
    rintro ⟨is_div, num_zero⟩
    exact num_ne_zero (.inr is_div) num_zero
  have backward : Exact range (combine range operator.inverse value right)
      (operator.inverse.apply value.toRat right.toRat) := by
    apply exact_combine range value_storable.normal.den_pos right_pos
    rintro ⟨inverse_is_div, num_zero⟩
    have is_mul : operator = .mul := by
      cases operator <;> simp [Operator.inverse] at inverse_is_div ⊢
    exact num_ne_zero (.inl is_mul) num_zero
  rw [answered] at forward
  rw [forward.toRat_eq, Operator.inverse_apply_apply operator left.toRat] at backward
  · exact backward.eq_of_storable left_storable
  · intro scaling
    exact mt (toRat_eq_zero_iff right_storable.normal).mp (right_ne_zero scaling)

theorem negate_negate (storable : left.Storable range)
    (answered : negate range left = ⟨value, false⟩) : negate range value = ⟨left, false⟩ := by
  have value_storable : value.Storable range := by
    have den_ne_zero : (left.den : Int) ≠ 0 := Int.natCast_ne_zero.mpr storable.normal.den_pos.ne'
    have negated := storable_reduce range (-left.num) den_ne_zero
    rw [negate] at answered
    rwa [answered] at negated
  have forward := exact_negate range storable.normal.den_pos
  rw [answered] at forward
  have backward := exact_negate range value_storable.normal.den_pos
  rw [forward.toRat_eq, neg_neg] at backward
  exact backward.eq_of_storable storable

/--
Each operation that is not cursed can be taken back, and taking it back gives the first operand
exactly as it was stored. Only a product with zero does not tell its first factor.
-/
theorem operations_undone (range : Range) {left right : Fraction}
    (left_storable : left.Storable range) (right_storable : right.Storable range) :
    (∀ quotient, combine range .div left right = ⟨quotient, false⟩ →
      combine range .mul quotient right = ⟨left, false⟩) ∧
    (right ≠ zero → ∀ product, combine range .mul left right = ⟨product, false⟩ →
      combine range .div product right = ⟨left, false⟩) ∧
    (∀ sum, combine range .add left right = ⟨sum, false⟩ →
      combine range .sub sum right = ⟨left, false⟩) ∧
    (∀ difference, combine range .sub left right = ⟨difference, false⟩ →
      combine range .add difference right = ⟨left, false⟩) ∧
    ∀ opposite, negate range left = ⟨opposite, false⟩ → negate range opposite = ⟨left, false⟩ := by
  refine ⟨?_, ?_, ?_, ?_, ?_⟩
  · intro quotient answered
    -- A quotient by zero is cursed, so the divisor is another number.
    have right_ne_zero : right ≠ zero := by
      rintro rfl
      rw [combine_of_div_zero range left rfl] at answered
      cases answered
    exact combine_inverse left_storable right_storable (fun _ => right_ne_zero) answered
  · intro right_ne_zero product answered
    exact combine_inverse left_storable right_storable (fun _ => right_ne_zero) answered
  · intro sum answered
    exact combine_inverse left_storable right_storable (by simp) answered
  · intro difference answered
    exact combine_inverse left_storable right_storable (by simp) answered
  · intro opposite answered
    exact negate_negate left_storable answered

/--
Half the greatest bounded number. Its quotient by a third of that number, their difference, its
sum with the opposite third and its product with its reciprocal all need more than 64 bits on the
way, and all fit in the end. Its sum with the third does not.
-/
theorem operations_undone_past_word_size :
    let half : Fraction := ⟨0x7FFFFFFFFFFFFFFF, 2⟩
    let third : Fraction := ⟨0x7FFFFFFFFFFFFFFF, 3⟩
    let minusThird : Fraction := ⟨-0x7FFFFFFFFFFFFFFF, 3⟩
    let reciprocal : Fraction := ⟨2, 0x7FFFFFFFFFFFFFFF⟩
    let sixth : Fraction := ⟨0x7FFFFFFFFFFFFFFF, 6⟩
    let minusHalf : Fraction := ⟨-0x7FFFFFFFFFFFFFFF, 2⟩
    half.Storable .bounded ∧ third.Storable .bounded ∧ minusThird.Storable .bounded ∧
      reciprocal.Storable .bounded ∧
      combine .bounded .div half third = ⟨⟨3, 2⟩, false⟩ ∧
      combine .bounded .mul ⟨3, 2⟩ third = ⟨half, false⟩ ∧
      combine .bounded .mul half reciprocal = ⟨ofInt 1, false⟩ ∧
      combine .bounded .div (ofInt 1) reciprocal = ⟨half, false⟩ ∧
      combine .bounded .add half third = ⟨zero, true⟩ ∧
      combine .bounded .add half minusThird = ⟨sixth, false⟩ ∧
      combine .bounded .sub sixth minusThird = ⟨half, false⟩ ∧
      combine .bounded .sub half third = ⟨sixth, false⟩ ∧
      combine .bounded .add sixth third = ⟨half, false⟩ ∧
      negate .bounded half = ⟨minusHalf, false⟩ ∧ negate .bounded minusHalf = ⟨half, false⟩ := by
  intro half third minusThird reciprocal sixth minusHalf
  have half_storable : half.Storable .bounded := by
    decide
  have third_storable : third.Storable .bounded := by
    decide
  have minusThird_storable : minusThird.Storable .bounded := by
    decide
  have reciprocal_storable : reciprocal.Storable .bounded := by
    decide
  have quotient : combine .bounded .div half third = ⟨⟨3, 2⟩, false⟩ := by
    decide +kernel
  have product : combine .bounded .mul half reciprocal = ⟨ofInt 1, false⟩ := by
    decide +kernel
  have too_large : combine .bounded .add half third = ⟨zero, true⟩ := by
    decide +kernel
  have sum : combine .bounded .add half minusThird = ⟨sixth, false⟩ := by
    decide +kernel
  have difference : combine .bounded .sub half third = ⟨sixth, false⟩ := by
    decide +kernel
  have opposite : negate .bounded half = ⟨minusHalf, false⟩ := by
    decide +kernel
  rcases operations_undone .bounded half_storable third_storable with
    ⟨from_quotient, -, -, from_difference, from_opposite⟩
  rcases operations_undone .bounded half_storable minusThird_storable with ⟨-, -, from_sum, -, -⟩
  rcases operations_undone .bounded half_storable reciprocal_storable with
    ⟨-, from_product, -, -, -⟩
  exact ⟨half_storable, third_storable, minusThird_storable, reciprocal_storable, quotient,
    from_quotient _ quotient, product, from_product (by decide) _ product, too_large, sum,
    from_sum _ sum, difference, from_difference _ difference, opposite, from_opposite _ opposite⟩

end Fraction

end SpanMachine
