import Mathlib.Algebra.Field.Basic
import Mathlib.Algebra.Field.Rat
import Mathlib.Data.Int.Cast.Field
import Mathlib.Data.Int.CharZero
import Mathlib.Data.Int.GCD
import Mathlib.Data.Rat.Lemmas
import SpanMachine.Proofs.Number.Wide

/-!
# Exact arithmetic

A fraction stands for a rational number. Every operation answers with the exact
rational result in lowest terms, as long as the range admits its two parts, and with a
cursed zero otherwise. The test is made on the lowest terms and not on the integers
that are formed on the way, which may be far larger.
-/

namespace SpanMachine

namespace Operator

/-- What an operator does to rational numbers. -/
def apply : Operator → ℚ → ℚ → ℚ
  | add, left, right => left + right
  | sub, left, right => left - right
  | mul, left, right => left * right
  | div, left, right => left / right

end Operator

namespace Fraction

/-- The rational number that a fraction stands for. -/
def toRat (fraction : Fraction) : ℚ :=
  fraction.num / fraction.den

/-- A rational number in lowest terms. -/
def ofRat (exact : ℚ) : Fraction :=
  ⟨exact.num, exact.den⟩

/--
An answer to a question whose exact answer is the given rational number: the number itself in
lowest terms if the range admits its numerator and its denominator, and a cursed zero if not.
-/
structure Exact (range : Range) (answer : Answer Fraction) (exact : ℚ) : Prop where
  admitted : range.Admits exact.num ∧ range.Admits exact.den →
    answer.cursed = false ∧ answer.value.Normal ∧ answer.value.toRat = exact
  refused : ¬(range.Admits exact.num ∧ range.Admits exact.den) → answer = ⟨zero, true⟩

theorem toRat_ofRat (exact : ℚ) : (ofRat exact).toRat = exact :=
  Rat.num_div_den exact

theorem normal_ofRat (exact : ℚ) : (ofRat exact).Normal :=
  ⟨exact.den_pos, exact.reduced⟩

theorem num_eq_zero_iff {fraction : Fraction} (normal : fraction.Normal) :
    fraction.num = 0 ↔ fraction = zero := by
  rcases fraction with ⟨num, den⟩
  constructor
  · intro num_zero
    have den_one := normal.coprime
    simp only at num_zero den_one
    subst num_zero
    simp only [Int.natAbs_zero, Nat.gcd_zero_left] at den_one
    simp [zero, den_one]
  · intro fraction_zero
    exact congrArg Fraction.num fraction_zero

theorem orient_pos (num : Int) {den : Int} (den_ne_zero : den ≠ 0) :
    0 < (orient num den).2 ∧ ((orient num den).1 : ℚ) / (orient num den).2 = num / den := by
  simp only [orient]
  split
  · refine ⟨by omega, ?_⟩
    push_cast
    exact neg_div_neg_eq _ _
  · exact ⟨by omega, rfl⟩

/-- Dividing by the greatest common divisor leaves the lowest terms of the quotient. -/
theorem lowest_terms (num : Int) {den : Int} (den_pos : 0 < den) :
    ((num : ℚ) / den).num = num / Int.gcd num den ∧
      (((num : ℚ) / den).den : Int) = den / Int.gcd num den := by
  have divisor_pos : 0 < Int.gcd num den := Int.gcd_pos_of_ne_zero_right num (by omega)
  have coprime : Nat.Coprime (num / Int.gcd num den).natAbs (den / Int.gcd num den).natAbs :=
    Int.gcd_div_gcd_div_gcd divisor_pos
  have reducedDen_pos : 0 < den / Int.gcd num den := by
    apply Int.ediv_pos_of_pos_of_dvd den_pos (by omega)
    exact Int.gcd_dvd_right ..
  have same_quotient : ((num / Int.gcd num den : Int) : ℚ) / (den / Int.gcd num den : Int) =
      num / den := by
    have divisor_ne_zero : ((Int.gcd num den : Int) : ℚ) ≠ 0 :=
      Int.cast_ne_zero.mpr (by omega)
    rw [Int.cast_div (Int.gcd_dvd_left ..) divisor_ne_zero,
      Int.cast_div (Int.gcd_dvd_right ..) divisor_ne_zero]
    exact div_div_div_cancel_right₀ divisor_ne_zero _ _
  rw [← same_quotient]
  exact ⟨Rat.num_div_eq_of_coprime reducedDen_pos coprime,
    Rat.den_div_eq_of_coprime reducedDen_pos coprime⟩

theorem reduce_eq_ofRat (range : Range) (num : Int) {den : Int} (den_ne_zero : den ≠ 0) :
    reduce range num den =
      if range.Admits ((num : ℚ) / den).num ∧ range.Admits ((num : ℚ) / den).den then
        ⟨ofRat (num / den), false⟩
      else
        curse := by
  rcases orient_pos num den_ne_zero with ⟨den_pos, same_quotient⟩
  rcases lowest_terms (orient num den).1 den_pos with ⟨num_eq, den_eq⟩
  rw [same_quotient] at num_eq den_eq
  simp only [reduce, Range.gcd_eq, ← num_eq, ← den_eq, Int.toNat_natCast, ofRat]

theorem exact_reduce (range : Range) (num : Int) {den : Int} (den_ne_zero : den ≠ 0) :
    Exact range (reduce range num den) (num / den) := by
  rw [reduce_eq_ofRat range num den_ne_zero]
  constructor
  · intro admitted
    rw [if_pos admitted]
    exact ⟨rfl, normal_ofRat _, toRat_ofRat _⟩
  · intro refused
    rw [if_neg refused]
    rfl

theorem apply_toRat {left right : Fraction} (left_pos : 0 < left.den) (right_pos : 0 < right.den)
    (operator : Operator) :
    operator.apply left.toRat right.toRat =
      (combined left right operator).1 / (combined left right operator).2 := by
  have left_den : (left.den : ℚ) ≠ 0 := Nat.cast_ne_zero.mpr (by omega)
  have right_den : (right.den : ℚ) ≠ 0 := Nat.cast_ne_zero.mpr (by omega)
  cases operator with
  | add =>
      simp only [Operator.apply, toRat, combined]
      push_cast
      rw [div_add_div _ _ left_den right_den, mul_comm (left.den : ℚ) right.num]
  | sub =>
      simp only [Operator.apply, toRat, combined]
      push_cast
      rw [div_sub_div _ _ left_den right_den, mul_comm (left.den : ℚ) right.num]
  | mul =>
      simp only [Operator.apply, toRat, combined]
      push_cast
      exact div_mul_div_comm _ _ _ _
  | div =>
      simp only [Operator.apply, toRat, combined]
      push_cast
      exact div_div_div_eq _ _ _ _

theorem exact_combine (range : Range) {left right : Fraction} (left_pos : 0 < left.den)
    (right_pos : 0 < right.den) {operator : Operator}
    (not_by_zero : ¬(operator = .div ∧ right.num = 0)) :
    Exact range (combine range operator left right)
      (operator.apply left.toRat right.toRat) := by
  rw [apply_toRat left_pos right_pos]
  simp only [combine, not_by_zero, if_false]
  exact exact_reduce range _ (combined_den_ne_zero left_pos right_pos not_by_zero)

theorem exact_negate (range : Range) {fraction : Fraction} (pos : 0 < fraction.den) :
    Exact range (negate range fraction) (-fraction.toRat) := by
  have den_ne_zero : (fraction.den : Int) ≠ 0 := by omega
  have negated := exact_reduce range (-fraction.num) den_ne_zero
  have same_quotient : ((-fraction.num : Int) : ℚ) / (fraction.den : Int) = -fraction.toRat := by
    simp only [toRat]
    push_cast
    exact neg_div _ _
  rw [same_quotient] at negated
  exact negated

/--
All arithmetic on fractions in lowest terms is exact. A bounded operation needs no more
than 128 bits on the way to its answer, and an unbounded one is cursed only when it
divides by zero.
-/
theorem arithmetic_exact (range : Range) {left right : Fraction} (left_normal : left.Normal)
    (left_fits : left.Fits range) (right_normal : right.Normal) (right_fits : right.Fits range) :
    (∀ operator, ¬(operator = .div ∧ right = zero) →
        Exact range (combine range operator left right)
          (operator.apply left.toRat right.toRat)) ∧
      combine range .div left zero = ⟨zero, true⟩ ∧
      Exact range (negate range left) (-left.toRat) ∧
      (range = .bounded →
        (∀ operator, Wide.combine? operator left right =
          some (combine range operator left right)) ∧
        Wide.negate? left = some (negate range left)) ∧
      (range = .unbounded →
        (∀ operator, (combine range operator left right).cursed = true ↔
          operator = .div ∧ right = zero) ∧
        (negate range left).cursed = false) := by
  refine ⟨?_, ?_, ?_, ?_, ?_⟩
  · intro operator not_by_zero
    apply exact_combine range left_normal.den_pos right_normal.den_pos
    rwa [num_eq_zero_iff right_normal]
  · exact combine_of_div_zero range left rfl
  · exact exact_negate range left_normal.den_pos
  · rintro rfl
    constructor
    · intro operator
      exact Wide.combine?_eq left_normal.den_pos left_fits right_normal.den_pos right_fits operator
    · exact Wide.negate?_eq left_normal.den_pos left_fits
  · rintro rfl
    constructor
    · intro operator
      rw [combine_unbounded_cursed_iff, num_eq_zero_iff right_normal]
    · exact reduce_unbounded _ _

/-- The largest cross products there are: the least numerator over the greatest denominator. -/
theorem arithmetic_exact_at_extremes :
    let extreme : Fraction := ⟨-0x8000000000000000, 0x7FFFFFFFFFFFFFFF⟩
    extreme.Normal ∧ extreme.Fits .bounded ∧
      (∀ operator, Exact .bounded (combine .bounded operator extreme extreme)
        (operator.apply extreme.toRat extreme.toRat)) ∧
      ∀ operator, Wide.combine? operator extreme extreme =
        some (combine .bounded operator extreme extreme) := by
  intro extreme
  have normal : extreme.Normal := ⟨by decide, by decide⟩
  have fits : extreme.Fits .bounded := ⟨by decide, by decide⟩
  have exact := arithmetic_exact .bounded normal fits normal fits
  refine ⟨normal, fits, ?_, (exact.2.2.2.1 rfl).1⟩
  intro operator
  exact exact.1 operator (by rintro ⟨-, is_zero⟩; exact absurd is_zero (by decide))

end Fraction

end SpanMachine
