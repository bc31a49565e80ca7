import SpanMachine.Proofs.Bytes.Decimal
import SpanMachine.Proofs.Number.Overflow

/-!
# Bounded arithmetic in 128 bits

The bounded operations are given once more, this time on a machine whose integers have
128 bits. Every product, sum, difference, sign flip, quotient and remainder is a step
of its own here, and a step whose result needs more bits, like a division by zero, has
no result at all. Quotients and remainders are rounded towards zero.

The main statement is that all steps have a result when the operands are fractions of
64-bit integers, and that they lead to the same answer as arithmetic on all integers. The
same is true of reading digits, whatever the text, since a digit is appended only after it
has been found that there is room for it. The bounds leave little room. A sum of two
cross products lies within `2 ^ 127 - 2 ^ 64` of zero, and `-2 ^ 127` itself must never
turn up, since its sign cannot be flipped.
-/

namespace SpanMachine

namespace Fraction

theorem combined_den_ne_zero {left right : Fraction} {operator : Operator}
    (left_pos : 0 < left.den) (right_pos : 0 < right.den)
    (not_by_zero : ¬(operator = .div ∧ right.num = 0)) :
    (combined left right operator).2 ≠ 0 := by
  have left_den : (left.den : Int) ≠ 0 := by omega
  have right_den : (right.den : Int) ≠ 0 := by omega
  cases operator with
  | add | sub | mul => exact Int.mul_ne_zero left_den right_den
  | div =>
      apply Int.mul_ne_zero left_den
      intro divisor_zero
      exact not_by_zero ⟨rfl, divisor_zero⟩

end Fraction

namespace Wide

/-- The signed integers of 128 bits. -/
def Holds (value : Int) : Prop :=
  -0x80000000000000000000000000000000 ≤ value ∧ value ≤ 0x7FFFFFFFFFFFFFFFFFFFFFFFFFFFFFFF

instance (value : Int) : Decidable (Holds value) :=
  inferInstanceAs (Decidable (_ ∧ _))

/-- The integers of 128 bits whose sign can be flipped. -/
def Flips (value : Int) : Prop :=
  value.natAbs ≤ Range.ceiling

/-- The result of a step, if 128 bits can hold it. -/
def result? (value : Int) : Option Int :=
  if Holds value then some value else none

def mul? (a b : Int) : Option Int :=
  result? (a * b)

def add? (a b : Int) : Option Int :=
  result? (a + b)

def sub? (a b : Int) : Option Int :=
  result? (a - b)

def neg? (a : Int) : Option Int :=
  result? (-a)

def div? (a b : Int) : Option Int :=
  if b = 0 then none else result? (a.tdiv b)

/-- The sign flip that makes a divisor positive. -/
def abs? (a : Int) : Option Int :=
  if a < 0 then neg? a else some a

/-- Replaces the pair `(a, b)` by `(b, a % b)` until the second part is zero. -/
def remainderLoop? (a b : Int) : Option Int :=
  if b = 0 then
    some a
  else if Holds (a.tmod b) then
    remainderLoop? b (a.tmod b)
  else
    none
termination_by b.natAbs
decreasing_by
  rw [Int.natAbs_tmod]
  exact Nat.mod_lt _ (by omega)

/-- The greatest common divisor. -/
def gcd? (a b : Int) : Option Int := do
  let a ← abs? a
  let b ← abs? b
  remainderLoop? a b

/-- The same quotient over a denominator that is not negative. -/
def orient? (num den : Int) : Option (Int × Int) :=
  if den < 0 then do
    let num ← neg? num
    let den ← neg? den
    return (num, den)
  else
    some (num, den)

/-- The fraction of a numerator and a denominator, in lowest terms. -/
def reduce? (num den : Int) : Option (Answer Fraction) := do
  let (num, den) ← orient? num den
  let divisor ← gcd? num den
  let reducedNum ← div? num divisor
  let reducedDen ← div? den divisor
  if Range.bounded.Admits reducedNum ∧ Range.bounded.Admits reducedDen then
    return ⟨⟨reducedNum, reducedDen.toNat⟩, false⟩
  else
    return Fraction.curse

/-- The numerator and the denominator that an operator forms before reduction. -/
def combined? (left right : Fraction) : Operator → Option (Int × Int)
  | .add => do
    let num ← add? (← mul? left.num right.den) (← mul? right.num left.den)
    return (num, ← mul? left.den right.den)
  | .sub => do
    let num ← sub? (← mul? left.num right.den) (← mul? right.num left.den)
    return (num, ← mul? left.den right.den)
  | .mul => do
    return (← mul? left.num right.num, ← mul? left.den right.den)
  | .div => do
    return (← mul? left.num right.den, ← mul? left.den right.num)

/-- Joins two fractions by an operator. -/
def combine? (operator : Operator) (left right : Fraction) : Option (Answer Fraction) :=
  if operator = .div ∧ right.num = 0 then
    some Fraction.curse
  else do
    let (num, den) ← combined? left right operator
    reduce? num den

/-- The fraction with the opposite sign. -/
def negate? (fraction : Fraction) : Option (Answer Fraction) := do
  let num ← neg? fraction.num
  reduce? num fraction.den

theorem result?_of_flips {value : Int} (flips : Flips value) : result? value = some value := by
  have holds : Holds value := by
    simp only [Flips, Range.ceiling] at flips
    simp only [Holds]
    omega
  simp only [result?, holds, if_true]

theorem Flips.of_natAbs_le {value bound : Int} (flips : Flips bound)
    (value_le : value.natAbs ≤ bound.natAbs) : Flips value :=
  Nat.le_trans value_le flips

theorem Flips.neg {value : Int} (flips : Flips value) : Flips (-value) :=
  flips.of_natAbs_le (by omega)

theorem abs?_eq {value : Int} (flips : Flips value) : abs? value = some (value.natAbs : Int) := by
  simp only [abs?]
  split
  · rw [neg?, result?_of_flips flips.neg]
    congr 1
    omega
  · congr 1
    omega

/-- Remainders only shrink, so that the loop has all its results. -/
theorem remainderLoop?_eq (a b : Nat) (flips : Flips b) :
    remainderLoop? a b = some (Range.remainderLoop a b : Int) := by
  fun_induction Range.remainderLoop a b with
  | case1 a =>
      rw [remainderLoop?]
      simp
  | case2 a b b_ne_zero ih =>
      have remainder_lt : a % b < b := Nat.mod_lt a (by omega)
      have remainder_flips : Flips (a % b : Nat) :=
        flips.of_natAbs_le (by simp only [Int.natAbs_natCast]; omega)
      have remainder_holds : Holds (a % b : Nat) := by
        simp only [Flips, Range.ceiling] at remainder_flips
        simp only [Holds]
        omega
      rw [remainderLoop?, if_neg (by omega), ← Int.ofNat_tmod, if_pos remainder_holds]
      exact ih remainder_flips

theorem gcd?_eq {a b : Int} (a_flips : Flips a) (b_flips : Flips b) :
    gcd? a b = some (Range.bounded.gcd a b : Int) := by
  have loop_eq := remainderLoop?_eq a.natAbs b.natAbs (by simpa only [Flips, Int.natAbs_natCast])
  simp only [gcd?, abs?_eq a_flips, abs?_eq b_flips, Option.bind_eq_bind, Option.bind_some, loop_eq]
  rfl

theorem div?_of_flips {num divisor : Int} (flips : Flips num) (divisor_ne_zero : divisor ≠ 0) :
    div? num divisor = some (num.tdiv divisor) := by
  have quotient_flips : Flips (num.tdiv divisor) :=
    flips.of_natAbs_le (Int.natAbs_tdiv_le_natAbs num divisor)
  rw [div?, if_neg divisor_ne_zero, result?_of_flips quotient_flips]

theorem div?_eq {num divisor : Int} (flips : Flips num) (divisor_ne_zero : divisor ≠ 0)
    (divides : divisor ∣ num) : div? num divisor = some (num / divisor) := by
  rw [div?_of_flips flips divisor_ne_zero, Int.tdiv_eq_ediv_of_dvd divides]

theorem orient?_eq {num den : Int} (num_flips : Flips num) (den_flips : Flips den) :
    orient? num den = some (Fraction.orient num den) := by
  simp only [orient?, Fraction.orient]
  split
  · simp only [neg?, result?_of_flips num_flips.neg, result?_of_flips den_flips.neg]
    rfl
  · rfl

theorem flips_orient {num den : Int} (num_flips : Flips num) (den_flips : Flips den)
    (den_ne_zero : den ≠ 0) :
    Flips (Fraction.orient num den).1 ∧ Flips (Fraction.orient num den).2 ∧
      (Fraction.orient num den).2 ≠ 0 := by
  simp only [Fraction.orient]
  split
  · exact ⟨num_flips.neg, den_flips.neg, by omega⟩
  · exact ⟨num_flips, den_flips, den_ne_zero⟩

/-- Reduction stays within 128 bits once the numerator and the denominator do. -/
theorem reduce?_eq {num den : Int} (num_flips : Flips num) (den_flips : Flips den)
    (den_ne_zero : den ≠ 0) : reduce? num den = some (Fraction.reduce .bounded num den) := by
  rcases flips_orient num_flips den_flips den_ne_zero with ⟨num_oriented, den_oriented⟩
  simp only [reduce?, orient?_eq num_flips den_flips, Fraction.reduce]
  generalize Fraction.orient num den = oriented at num_oriented den_oriented
  rcases oriented with ⟨num, den⟩
  have divisor_ne_zero : (Range.bounded.gcd num den : Int) ≠ 0 := by
    rw [Range.gcd_eq]
    intro divisor_eq_zero
    exact den_oriented.2 (Int.gcd_eq_zero_iff.mp (Int.natCast_eq_zero.mp divisor_eq_zero)).2
  have divides_num : (Range.bounded.gcd num den : Int) ∣ num := by
    rw [Range.gcd_eq]
    exact Int.gcd_dvd_left ..
  have divides_den : (Range.bounded.gcd num den : Int) ∣ den := by
    rw [Range.gcd_eq]
    exact Int.gcd_dvd_right ..
  simp only [Option.bind_eq_bind, Option.bind_some, gcd?_eq num_oriented den_oriented.1,
    div?_eq num_oriented divisor_ne_zero divides_num,
    div?_eq den_oriented.1 divisor_ne_zero divides_den]
  split <;> rfl

/-- Half the numerators there are, so that a product of two of them has a bit to spare. -/
theorem flips_mul {a b : Int} (a_le : a.natAbs ≤ 0x8000000000000000)
    (b_le : b.natAbs ≤ 0x8000000000000000) : Flips (a * b) := by
  have product_le := Nat.mul_le_mul a_le b_le
  simp only [Flips, Range.ceiling, Int.natAbs_mul]
  omega

theorem natAbs_cross_le {a b : Int} (a_le : a.natAbs ≤ 0x8000000000000000)
    (b_le : b.natAbs ≤ 0x7FFFFFFFFFFFFFFF) :
    (a * b).natAbs ≤ 0x3FFFFFFFFFFFFFFF8000000000000000 := by
  have product_le := Nat.mul_le_mul a_le b_le
  rw [Int.natAbs_mul]
  omega

section Operands

variable {left right : Fraction}

theorem natAbs_num_le (fits : left.Fits .bounded) : left.num.natAbs ≤ 0x8000000000000000 := by
  have admitted := fits.num
  simp only [Range.Admits] at admitted
  omega

theorem natAbs_den_le (fits : left.Fits .bounded) :
    (left.den : Int).natAbs ≤ 0x7FFFFFFFFFFFFFFF := by
  have admitted := fits.den
  simp only [Range.Admits] at admitted
  omega

theorem flips_num (fits : left.Fits .bounded) : Flips left.num := by
  have num_le := natAbs_num_le fits
  simp only [Flips, Range.ceiling]
  omega

theorem flips_den (fits : left.Fits .bounded) : Flips left.den := by
  have den_le := natAbs_den_le fits
  simp only [Flips, Range.ceiling]
  omega

/-- What an operator forms before reduction has all its parts in 128 bits. -/
theorem combined?_eq (left_fits : left.Fits .bounded) (right_fits : right.Fits .bounded)
    (operator : Operator) :
    combined? left right operator = some (Fraction.combined left right operator) ∧
      Flips (Fraction.combined left right operator).1 ∧
      Flips (Fraction.combined left right operator).2 := by
  have left_num := natAbs_num_le left_fits
  have left_den := natAbs_den_le left_fits
  have right_num := natAbs_num_le right_fits
  have right_den := natAbs_den_le right_fits
  have dens_flip : Flips (left.den * right.den) := flips_mul (by omega) (by omega)
  have left_cross := natAbs_cross_le left_num right_den
  have right_cross := natAbs_cross_le right_num left_den
  have left_flips : Flips (left.num * right.den) := flips_mul left_num (by omega)
  have right_flips : Flips (right.num * left.den) := flips_mul right_num (by omega)
  cases operator with
  | add =>
      have sum_flips : Flips (left.num * right.den + right.num * left.den) := by
        simp only [Flips, Range.ceiling]
        omega
      refine ⟨?_, sum_flips, dens_flip⟩
      simp only [combined?, mul?, add?, result?_of_flips, left_flips, right_flips, sum_flips,
        dens_flip, Option.bind_eq_bind, Option.bind_some]
      rfl
  | sub =>
      have difference_flips : Flips (left.num * right.den - right.num * left.den) := by
        simp only [Flips, Range.ceiling]
        omega
      refine ⟨?_, difference_flips, dens_flip⟩
      simp only [combined?, mul?, sub?, result?_of_flips, left_flips, right_flips,
        difference_flips, dens_flip, Option.bind_eq_bind, Option.bind_some]
      rfl
  | mul =>
      have nums_flip : Flips (left.num * right.num) := flips_mul left_num right_num
      refine ⟨?_, nums_flip, dens_flip⟩
      simp only [combined?, mul?, result?_of_flips, nums_flip, dens_flip]
      rfl
  | div =>
      have den_flips : Flips (left.den * right.num) := flips_mul (by omega) right_num
      refine ⟨?_, left_flips, den_flips⟩
      simp only [combined?, mul?, result?_of_flips, left_flips, den_flips]
      rfl

/-- Joining two fractions of 64-bit integers needs no more than 128 bits. -/
theorem combine?_eq (left_pos : 0 < left.den) (left_fits : left.Fits .bounded)
    (right_pos : 0 < right.den) (right_fits : right.Fits .bounded) (operator : Operator) :
    combine? operator left right = some (Fraction.combine .bounded operator left right) := by
  simp only [combine?, Fraction.combine]
  split
  · rfl
  · rename_i not_by_zero
    rcases combined?_eq left_fits right_fits operator with ⟨formed, num_flips, den_flips⟩
    have den_ne_zero := Fraction.combined_den_ne_zero left_pos right_pos not_by_zero
    simp only [formed, Option.bind_eq_bind, Option.bind_some]
    exact reduce?_eq num_flips den_flips den_ne_zero

theorem negate?_eq (pos : 0 < left.den) (fits : left.Fits .bounded) :
    negate? left = some (Fraction.negate .bounded left) := by
  have num_flips := (flips_num fits).neg
  simp only [negate?, neg?, result?_of_flips num_flips, Option.bind_eq_bind, Option.bind_some]
  exact reduce?_eq num_flips (flips_den fits) (by omega)

end Operands

/--
Appends a digit to a number, unless the byte is no digit or there is no room for it below the
ceiling. Whether there is room is asked before anything is multiplied.
-/
def appendDigit? (sum : Int) (byte : UInt8) : Option (Option Int) := do
  let digit ← sub? byte.toNat 0x30
  if digit < 0 ∨ 9 < digit then
    return none
  let room ← div? (← sub? Range.ceiling digit) 10
  if room < sum then
    return none
  let shifted ← mul? sum 10
  return some (← add? shifted digit)

/-- Appends the digits of a text to a number, up to the first that is refused. -/
def appendDigits? (sum : Int) : Bytes → Option (Option Int)
  | [] => some (some sum)
  | byte :: rest => do
    match ← appendDigit? sum byte with
    | none => return none
    | some next => appendDigits? next rest

/-- Reads a string of digits. -/
def readDigits? (text : Bytes) : Option (Option Int) :=
  appendDigits? 0 text

theorem appendDigit?_eq (sum : Nat) (byte : UInt8) :
    appendDigit? sum byte = some ((Range.appendDigit? sum byte).map Int.ofNat) := by
  have byte_lt := byte.toNat_lt
  have digit_flips : Flips (byte.toNat - 0x30) := by
    simp only [Flips, Range.ceiling]
    omega
  simp only [appendDigit?, sub?, result?_of_flips digit_flips, Option.bind_eq_bind,
    Option.bind_some]
  by_cases digit : Byte.isDigit byte = true
  · have bounds := Byte.isDigit_iff.mp digit
    have value_eq : (byte.toNat : Int) - 0x30 = Decimal.digitValue byte := by
      simp only [Decimal.digitValue]
      omega
    have value_le : Decimal.digitValue byte ≤ 9 := by
      simp only [Decimal.digitValue]
      omega
    simp only [Range.appendDigit?, digit, Bool.true_and, decide_eq_true_eq]
    generalize Decimal.digitValue byte = value at value_eq value_le
    have is_digit : ¬((value : Int) < 0 ∨ 9 < (value : Int)) := by omega
    have gap_flips : Flips ((Range.ceiling : Int) - value) := by
      simp only [Flips, Range.ceiling]
      omega
    have room_eq : ((Range.ceiling : Int) - value).tdiv 10 = (Range.ceiling - value) / 10 := by
      apply Int.tdiv_eq_ediv_of_nonneg
      simp only [Range.ceiling]
      omega
    simp only [value_eq, is_digit, if_false, result?_of_flips gap_flips, Option.bind_some,
      div?_of_flips gap_flips (show (10 : Int) ≠ 0 by decide), room_eq]
    by_cases fits : 10 * sum + value ≤ Range.ceiling
    · have room : ¬(((Range.ceiling : Int) - value) / 10 < sum) := by omega
      have shifted_flips : Flips ((sum : Int) * 10) := by
        simp only [Flips]
        omega
      have sum_flips : Flips ((sum : Int) * 10 + value) := by
        simp only [Flips]
        omega
      have same_sum : (sum : Int) * 10 + value = Int.ofNat (10 * sum + value) := by
        rw [Int.ofNat_eq_natCast]
        omega
      simp only [room, if_false, fits, if_true, mul?, add?, result?_of_flips shifted_flips,
        result?_of_flips sum_flips, Option.bind_some]
      rw [same_sum]
      rfl
    · have no_room : ((Range.ceiling : Int) - value) / 10 < sum := by omega
      simp only [no_room, if_true, fits, if_false]
      rfl
  · have outside : (byte.toNat : Int) - 0x30 < 0 ∨ 9 < (byte.toNat : Int) - 0x30 := by
      rw [Byte.isDigit_iff] at digit
      omega
    have refused : Range.appendDigit? sum byte = none := by
      simp only [Range.appendDigit?, digit, Bool.false_and, Bool.false_eq_true, if_false]
    rw [if_pos outside, refused]
    rfl

/-- Appending digits under the ceiling stays within 128 bits, whatever the text. -/
theorem appendDigits?_eq (sum : Nat) (text : Bytes) :
    appendDigits? sum text = some ((text.foldlM Range.appendDigit? sum).map Int.ofNat) := by
  induction text generalizing sum with
  | nil => rfl
  | cons byte rest ih =>
      simp only [appendDigits?, appendDigit?_eq, List.foldlM_cons, Option.bind_eq_bind,
        Option.bind_some]
      cases Range.appendDigit? sum byte with
      | none => rfl
      | some next => exact ih next

theorem readDigits?_eq (text : Bytes) :
    readDigits? text = some ((Range.bounded.readDigits? text).map Int.ofNat) :=
  appendDigits?_eq 0 text

end Wide

end SpanMachine
