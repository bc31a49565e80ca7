import SpanMachine.Proofs.Number.Spelling

/-!
# Greatest common divisors in 128 bits

Bounded fractions are reduced by the common divisor that a loop of remainders finds. The loop is
given once more here with a number of passes that it may take at most, so that one can say when
it ends. Two passes take away more than half of the divisor, and a divisor of 127 bits is gone
after 254 of them. No pass needs more than 128 bits, since remainders only shrink. All that can
fail is the flip of the signs before the first pass, and it fails for the least integer only.

The second half follows the numerators and denominators that operators, sign flips and numerals
form, up to the pair that is handed to the loop. The least integer does not occur in such a
pair, and its second part is a denominator and therefore not zero.
-/

namespace SpanMachine

namespace Wide

/-- The integer of 128 bits whose sign cannot be flipped. -/
def least : Int :=
  -0x80000000000000000000000000000000

/-- The pairs that may be handed to the loop: two integers of 128 bits, but not the least one. -/
structure Suitable (a b : Int) : Prop where
  left : Holds a ∧ a ≠ least
  right : Holds b ∧ b ≠ least

/-- A common divisor that is not negative and that all common divisors divide. -/
structure IsGreatestDivisor (a b divisor : Int) : Prop where
  nonneg : 0 ≤ divisor
  left : divisor ∣ a
  right : divisor ∣ b
  greatest : ∀ other, other ∣ a → other ∣ b → other ∣ divisor

/-- The remainder of a division, which has a result where the quotient has one. -/
def rem? (a b : Int) : Option Int := do
  let _ ← div? a b
  result? (a.tmod b)

/-- The loop of remainders, as long as it takes no more than the given number of passes. -/
def remainderLoopWithin? (passes : Nat) (a b : Int) : Option Int :=
  if b = 0 then
    some a
  else
    match passes with
    | 0 => none
    | passes + 1 => do
      let remainder ← rem? a b
      remainderLoopWithin? passes b remainder

/-- The greatest common divisor, if the loop finds it within the given number of passes. -/
def gcdWithin? (passes : Nat) (a b : Int) : Option Int := do
  let a ← abs? a
  let b ← abs? b
  remainderLoopWithin? passes a b

theorem flips_iff {value : Int} : Flips value ↔ Holds value ∧ value ≠ least := by
  simp only [Flips, Range.ceiling, Holds, least]
  omega

theorem suitable_iff {a b : Int} : Suitable a b ↔ Flips a ∧ Flips b := by
  constructor
  · rintro ⟨left, right⟩
    exact ⟨flips_iff.mpr left, flips_iff.mpr right⟩
  · rintro ⟨left, right⟩
    exact ⟨flips_iff.mp left, flips_iff.mp right⟩

instance (a b : Int) : Decidable (Suitable a b) :=
  decidable_of_iff ((Holds a ∧ a ≠ least) ∧ Holds b ∧ b ≠ least)
    ⟨fun ⟨left, right⟩ => ⟨left, right⟩, fun ⟨left, right⟩ => ⟨left, right⟩⟩

theorem rem?_eq {a b : Nat} (flips : Flips a) (b_ne_zero : b ≠ 0) :
    rem? a b = some ((a % b : Nat) : Int) := by
  have remainder_flips : Flips (a % b : Nat) := by
    apply flips.of_natAbs_le
    simp only [Int.natAbs_natCast]
    exact Nat.mod_le a b
  have divisor_ne_zero : (b : Int) ≠ 0 := by omega
  simp only [rem?, div?_of_flips flips divisor_ne_zero, Option.bind_eq_bind, Option.bind_some,
    ← Int.ofNat_tmod, result?_of_flips remainder_flips]

/-- One pass. What the loop finds from the next pair on, it finds from this one with a pass more. -/
theorem remainderLoopWithin?_succ {passes a b : Nat} (flips : Flips a)
    (next : b ≠ 0 → remainderLoopWithin? passes b (a % b : Nat) =
      some (Range.remainderLoop b (a % b) : Int)) :
    remainderLoopWithin? (passes + 1) a b = some (Range.remainderLoop a b : Int) := by
  rw [remainderLoopWithin?, Range.remainderLoop]
  by_cases b_zero : b = 0
  · simp [b_zero]
  · simp [b_zero, rem?_eq flips b_zero, ← next b_zero]

/-- The remainder by a smaller divisor is less than half. -/
theorem two_mul_mod_lt {number divisor : Nat} (pos : 0 < divisor) (lt : divisor < number) :
    2 * (number % divisor) < number := by
  have remainder_lt : number % divisor < divisor := Nat.mod_lt number pos
  by_cases small : 2 * divisor ≤ number
  · omega
  · have remainder_eq : number % divisor = number - divisor := by
      rw [Nat.mod_eq_sub_mod lt.le]
      apply Nat.mod_eq_of_lt
      omega
    omega

/-- Two passes for each bit of the divisor are enough. -/
theorem remainderLoopWithin?_eq {bits a b : Nat} (a_flips : Flips a) (b_flips : Flips b)
    (small : b < 2 ^ bits) :
    remainderLoopWithin? (2 * bits) a b = some (Range.remainderLoop a b : Int) := by
  induction bits generalizing a b with
  | zero =>
      have b_zero : b = 0 := by simpa using small
      simp [b_zero, remainderLoopWithin?, Range.remainderLoop]
  | succ bits ih =>
      -- One pass need not lose a bit. The pair after two of them is `(a % b, b % (a % b))`.
      apply remainderLoopWithin?_succ a_flips
      intro b_ne_zero
      apply remainderLoopWithin?_succ b_flips
      intro remainder_ne_zero
      have remainder_lt : a % b < b := Nat.mod_lt a (Nat.pos_of_ne_zero b_ne_zero)
      have halved : 2 * (b % (a % b)) < b :=
        two_mul_mod_lt (Nat.pos_of_ne_zero remainder_ne_zero) remainder_lt
      apply ih
      · apply b_flips.of_natAbs_le
        simp only [Int.natAbs_natCast]
        omega
      · apply b_flips.of_natAbs_le
        simp only [Int.natAbs_natCast]
        omega
      · rw [Nat.pow_succ] at small
        omega

theorem gcdWithin?_eq {a b : Int} (a_flips : Flips a) (b_flips : Flips b) :
    gcdWithin? 254 a b = some (Range.bounded.gcd a b : Int) := by
  have loop_eq : remainderLoopWithin? (2 * 127) a.natAbs b.natAbs =
      some (Range.remainderLoop a.natAbs b.natAbs : Int) := by
    apply remainderLoopWithin?_eq
    · simpa only [Flips, Int.natAbs_natCast] using a_flips
    · simpa only [Flips, Int.natAbs_natCast] using b_flips
    · simp only [Flips, Range.ceiling] at b_flips
      omega
  simp only [gcdWithin?, abs?_eq a_flips, abs?_eq b_flips, Option.bind_eq_bind, Option.bind_some]
  exact loop_eq

theorem isGreatestDivisor_gcd (a b : Int) : IsGreatestDivisor a b (Int.gcd a b) := by
  refine ⟨Int.natCast_nonneg _, Int.gcd_dvd_left .., Int.gcd_dvd_right .., ?_⟩
  intro other divides_a divides_b
  exact Int.dvd_coe_gcd divides_a divides_b

theorem abs?_least : abs? least = none := by
  decide

/-- The flip of a sign is all that the loop can fail by. -/
theorem gcd?_of_not_suitable {a b : Int} (a_holds : Holds a) (b_holds : Holds b)
    (unsuitable : ¬Suitable a b) : gcd? a b = none := by
  rw [suitable_iff] at unsuitable
  by_cases a_flips : Flips a
  · have b_least : b = least := by
      by_contra b_ne_least
      exact unsuitable ⟨a_flips, flips_iff.mpr ⟨b_holds, b_ne_least⟩⟩
    simp [gcd?, abs?_eq a_flips, b_least, abs?_least]
  · have a_least : a = least := by
      by_contra a_ne_least
      exact a_flips (flips_iff.mpr ⟨a_holds, a_ne_least⟩)
    simp [gcd?, a_least, abs?_least]

end Wide

namespace Fraction

/-- A quotient with both parts divided by a common divisor, if the range admits what is left. -/
def lowered (range : Range) (num den divisor : Int) : Answer Fraction :=
  if range.Admits (num / divisor) ∧ range.Admits (den / divisor) then
    ⟨⟨num / divisor, (den / divisor).toNat⟩, false⟩
  else
    curse

end Fraction

/-- The calculations that end in a reduction. -/
inductive Calculation where
  | combine (operator : Operator) (left right : Fraction)
  | negate (value : Fraction)
  | read (text : Bytes)

namespace Calculation

/-- All operands are fractions that a bounded machine may store. A text may be any text. -/
def Storable : Calculation → Prop
  | combine _ left right => left.Storable .bounded ∧ right.Storable .bounded
  | negate value => value.Storable .bounded
  | read _ => True

instance (calculation : Calculation) : Decidable calculation.Storable :=
  match calculation with
  | combine _ _ _ => inferInstanceAs (Decidable (_ ∧ _))
  | negate value => inferInstanceAs (Decidable (value.Storable .bounded))
  | read _ => inferInstanceAs (Decidable True)

/-- The bounded fraction that is calculated, unless there is a curse or the text is no numeral. -/
def result? : Calculation → Option Fraction
  | combine operator left right => (Fraction.combine .bounded operator left right).toOption
  | negate value => (Fraction.negate .bounded value).toOption
  | read text => Numeral.read? .bounded text

end Calculation

namespace Wide

/-- The numerator and the denominator that a calculation has reduced, if it comes to that. -/
def formed? : Calculation → Option (Option (Int × Int))
  | .combine operator left right => do
    if operator = .div ∧ right.num = 0 then
      return none
    else
      return some (← combined? left right operator)
  | .negate value => do
    return some (← neg? value.num, value.den)
  | .read text => do
    match Numeral.digits? (Numeral.splitSign text).2 with
    | none => return none
    | some (numDigits, denDigits) =>
      match ← readDigits? numDigits, ← readDigits? denDigits with
      | some num, some den =>
        if den = 0 then
          return none
        else if (Numeral.splitSign text).1 then
          return some (← neg? num, den)
        else
          return some (num, den)
      | _, _ => return none

/-- The pair that is handed to the loop in the course of a calculation, if there is one. -/
def handed? (calculation : Calculation) : Option (Option (Int × Int)) := do
  match ← formed? calculation with
  | none => return none
  | some (num, den) => return some (← orient? num den)

/-- A calculation comes to the reduction of two parts whose signs can be flipped. -/
structure Forms (calculation : Calculation) (num den : Int) : Prop where
  formed : formed? calculation = some (some (num, den))
  num_flips : Flips num
  den_flips : Flips den
  den_ne_zero : den ≠ 0
  result : calculation.result? = (Fraction.reduce .bounded num den).toOption

theorem forms_combine {left right : Fraction} (left_storable : left.Storable .bounded)
    (right_storable : right.Storable .bounded) {operator : Operator}
    (not_by_zero : ¬(operator = .div ∧ right.num = 0)) :
    Forms (.combine operator left right) (Fraction.combined left right operator).1
      (Fraction.combined left right operator).2 := by
  rcases combined?_eq left_storable.fits right_storable.fits operator with
    ⟨formed, num_flips, den_flips⟩
  refine ⟨?_, num_flips, den_flips, ?_, ?_⟩
  · simp only [formed?, not_by_zero, if_false, formed]
    rfl
  · apply Fraction.combined_den_ne_zero _ _ not_by_zero
    · exact left_storable.normal.den_pos
    · exact right_storable.normal.den_pos
  · simp only [Calculation.result?, Fraction.combine, not_by_zero, if_false]

theorem forms_negate {value : Fraction} (storable : value.Storable .bounded) :
    Forms (.negate value) (-value.num) value.den := by
  have num_flips := (flips_num storable.fits).neg
  have den_pos := storable.normal.den_pos
  refine ⟨?_, num_flips, flips_den storable.fits, by omega, rfl⟩
  simp [formed?, neg?, result?_of_flips num_flips]

theorem flips_of_readDigits? {text : Bytes} {number : Nat}
    (read : Range.bounded.readDigits? text = some number) : Flips number := by
  simp only [Flips, Int.natAbs_natCast]
  exact Range.foldlM_appendDigit?_le_ceiling (Nat.zero_le _) read

theorem forms_read {text numDigits denDigits : Bytes} {num den : Nat}
    (digits : Numeral.digits? (Numeral.splitSign text).2 = some (numDigits, denDigits))
    (num_read : Range.bounded.readDigits? numDigits = some num)
    (den_read : Range.bounded.readDigits? denDigits = some den) (den_ne_zero : den ≠ 0) :
    Forms (.read text) (if (Numeral.splitSign text).1 then -num else num) den := by
  have num_flips := flips_of_readDigits? num_read
  refine ⟨?_, ?_, flips_of_readDigits? den_read, by omega, ?_⟩
  · simp only [formed?, digits, readDigits?_eq, num_read, den_read]
    by_cases negative : (Numeral.splitSign text).1 = true
    · simp [den_ne_zero, negative, neg?, result?_of_flips num_flips.neg]
    · simp [den_ne_zero, negative]
  · split
    · exact num_flips.neg
    · exact num_flips
  · simp [Calculation.result?, Numeral.read?, digits, num_read, den_read, den_ne_zero]

/-- Reading refuses a text before it forms anything, or it forms what can be reduced. -/
theorem formed?_read_cases (text : Bytes) :
    (formed? (.read text) = some none ∧ (Calculation.read text).result? = none) ∨
      ∃ num den, Forms (.read text) num den := by
  -- Refused are, in this order, no numeral, digits beyond the ceiling and a zero denominator.
  cases digits : Numeral.digits? (Numeral.splitSign text).2 with
  | none =>
      left
      simp [formed?, Calculation.result?, Numeral.read?, digits]
  | some parts =>
      cases num_read : Range.bounded.readDigits? parts.1 with
      | none =>
          left
          simp [formed?, Calculation.result?, Numeral.read?, digits, readDigits?_eq, num_read]
      | some num =>
          cases den_read : Range.bounded.readDigits? parts.2 with
          | none =>
              left
              simp [formed?, Calculation.result?, Numeral.read?, digits, readDigits?_eq, num_read,
                den_read]
          | some den =>
              by_cases den_zero : den = 0
              · left
                simp [formed?, Calculation.result?, Numeral.read?, digits, readDigits?_eq,
                  num_read, den_read, den_zero]
              · exact .inr ⟨_, _, forms_read digits num_read den_read den_zero⟩

/-- A calculation reduces nothing and has no result, or it forms what can be reduced. -/
theorem formed?_cases {calculation : Calculation} (storable : calculation.Storable) :
    (formed? calculation = some none ∧ calculation.result? = none) ∨
      ∃ num den, Forms calculation num den := by
  cases calculation with
  | combine operator left right =>
      by_cases by_zero : operator = .div ∧ right.num = 0
      · left
        simp [formed?, Calculation.result?, Fraction.combine, by_zero, Fraction.curse,
          Answer.toOption]
      · exact .inr ⟨_, _, forms_combine storable.1 storable.2 by_zero⟩
  | negate value => exact .inr ⟨_, _, forms_negate storable⟩
  | read text => exact formed?_read_cases text

/-- What is formed is handed over with its signs set, and lowered by the divisor that is found. -/
theorem Forms.exists_handed {calculation : Calculation} {num den : Int}
    (forms : Forms calculation num den) :
    ∃ a b divisor, handed? calculation = some (some (a, b)) ∧ Suitable a b ∧ b ≠ 0 ∧
      gcd? a b = some divisor ∧
      calculation.result? = (Fraction.lowered .bounded a b divisor).toOption := by
  rcases flips_orient forms.num_flips forms.den_flips forms.den_ne_zero with
    ⟨a_flips, b_flips, b_ne_zero⟩
  refine ⟨_, _, _, ?_, suitable_iff.mpr ⟨a_flips, b_flips⟩, b_ne_zero, gcd?_eq a_flips b_flips,
    ?_⟩
  · simp [handed?, forms.formed, orient?_eq forms.num_flips forms.den_flips]
  · rw [forms.result]
    rfl

/--
The loop finds the greatest common divisor of any two integers of 128 bits other than the least
one. It takes 254 passes at most, no step of it overflows, and unbounded numbers are reduced by
the same divisor. Calculations with storable operands hand only such pairs to the loop, and never
a zero as the second part.
-/
theorem common_divisors_found :
    (∀ a b, Suitable a b →
      ∃ divisor, gcdWithin? 254 a b = some divisor ∧ gcd? a b = some divisor ∧
        IsGreatestDivisor a b divisor ∧ (divisor = 0 ↔ a = 0 ∧ b = 0) ∧
        ∀ range : Range, (range.gcd a b : Int) = divisor) ∧
    (∀ a b, Holds a → Holds b → ¬Suitable a b → gcd? a b = none) ∧
    ∀ calculation : Calculation, calculation.Storable →
      (handed? calculation = some none ∧ calculation.result? = none) ∨
        ∃ a b divisor, handed? calculation = some (some (a, b)) ∧ Suitable a b ∧ b ≠ 0 ∧
          gcd? a b = some divisor ∧
          calculation.result? = (Fraction.lowered .bounded a b divisor).toOption := by
  refine ⟨?_, ?_, ?_⟩
  · intro a b suitable
    rcases suitable_iff.mp suitable with ⟨a_flips, b_flips⟩
    refine ⟨Int.gcd a b, ?_, ?_, isGreatestDivisor_gcd a b, ?_, ?_⟩
    · rw [gcdWithin?_eq a_flips b_flips, Range.gcd_eq]
    · rw [gcd?_eq a_flips b_flips, Range.gcd_eq]
    · simp [Int.gcd_eq_zero_iff]
    · intro range
      rw [Range.gcd_eq]
  · intro a b a_holds b_holds unsuitable
    exact gcd?_of_not_suitable a_holds b_holds unsuitable
  · intro calculation storable
    rcases formed?_cases storable with ⟨unformed, no_result⟩ | ⟨num, den, forms⟩
    · left
      simp [handed?, unformed, no_result]
    · exact .inr forms.exists_handed

/-- A numeral that hands over the integers at both ends, and a quotient whose signs are flipped. -/
theorem common_divisors_found_beside_least :
    let last : Int := Range.ceiling
    let numeral := Calculation.read (ascii
      "-170141183460469231731687303715884105727/170141183460469231731687303715884105727")
    let extreme : Fraction := ⟨-0x8000000000000000, 0x7FFFFFFFFFFFFFFF⟩
    let quotient := Calculation.combine .div extreme extreme
    Suitable (least + 1) last ∧ gcdWithin? 254 (least + 1) last = some last ∧
      IsGreatestDivisor (least + 1) last last ∧
      Holds least ∧ gcd? least last = none ∧
      handed? numeral = some (some (least + 1, last)) ∧ numeral.result? = some ⟨-1, 1⟩ ∧
      quotient.Storable ∧ quotient.result? = some ⟨1, 1⟩ ∧
      ∃ a b divisor, handed? quotient = some (some (a, b)) ∧ Suitable a b ∧ b ≠ 0 ∧
        gcd? a b = some divisor ∧
        quotient.result? = (Fraction.lowered .bounded a b divisor).toOption := by
  intro last numeral extreme quotient
  have suitable : Suitable (least + 1) last := by
    decide
  have within : gcdWithin? 254 (least + 1) last = some last := by
    decide +kernel
  have storable : quotient.Storable := by
    decide
  have quotient_eq : quotient.result? = some ⟨1, 1⟩ := by
    decide +kernel
  rcases common_divisors_found with ⟨found, refused, handed_over⟩
  have greatest : IsGreatestDivisor (least + 1) last last := by
    rcases found (least + 1) last suitable with ⟨divisor, divisor_eq, -, greatest, -⟩
    rw [within] at divisor_eq
    cases divisor_eq
    exact greatest
  have overflow : gcd? least last = none :=
    refused least last (by decide) (by decide) (by decide)
  refine ⟨suitable, within, greatest, by decide, overflow, by decide +kernel, by decide +kernel,
    storable, quotient_eq, ?_⟩
  apply (handed_over quotient storable).resolve_left
  rintro ⟨-, no_result⟩
  simp [quotient_eq] at no_result

end Wide

end SpanMachine
