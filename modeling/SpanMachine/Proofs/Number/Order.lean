import Mathlib.Algebra.Order.Field.Basic
import Mathlib.Algebra.Order.Ring.Rat
import Mathlib.Order.Compare
import Mathlib.Order.RelIso.Basic
import SpanMachine.Proofs.Number.Spelling

/-!
# The order of fractions

Fractions are compared by their cross products, and since denominators are positive, this is
the order of the rational numbers that they stand for. In lowest terms a rational number has
one numerator and one denominator only, so that fractions which compare equal are the same
fraction. Their texts then agree as well, and they agree in no other case, because a text can
be read back.

The cross products of 64-bit parts fit into 128 bits.
-/

namespace SpanMachine

namespace Wide

/-- Compares by the cross products. -/
def compare? (left right : Fraction) : Option Ordering := do
  let crossLeft ← mul? left.num right.den
  let crossRight ← mul? right.num left.den
  return if crossLeft < crossRight then .lt else if crossRight < crossLeft then .gt else .eq

theorem compare?_eq {left right : Fraction} (left_fits : left.Fits .bounded)
    (right_fits : right.Fits .bounded) : compare? left right = some (left.compare right) := by
  have left_den := natAbs_den_le left_fits
  have right_den := natAbs_den_le right_fits
  have left_flips : Flips (left.num * right.den) := by
    apply flips_mul (natAbs_num_le left_fits)
    omega
  have right_flips : Flips (right.num * left.den) := by
    apply flips_mul (natAbs_num_le right_fits)
    omega
  simp only [compare?, mul?, result?_of_flips left_flips, result?_of_flips right_flips,
    Option.bind_eq_bind, Option.bind_some]
  rfl

end Wide

namespace Fraction

variable {left right : Fraction}

theorem toRat_lt_iff (left_pos : 0 < left.den) (right_pos : 0 < right.den) :
    left.toRat < right.toRat ↔ left.num * right.den < right.num * left.den := by
  have left_den : (0 : ℚ) < left.den := Nat.cast_pos.mpr left_pos
  have right_den : (0 : ℚ) < right.den := Nat.cast_pos.mpr right_pos
  rw [toRat, toRat, div_lt_div_iff₀ left_den right_den]
  norm_cast

theorem compare_eq_cmp (left_pos : 0 < left.den) (right_pos : 0 < right.den) :
    left.compare right = cmp left.toRat right.toRat := by
  symm
  apply Ordering.Compares.cmp_eq
  simp only [compare]
  split
  · rename_i below
    exact (toRat_lt_iff left_pos right_pos).mpr below
  · rename_i not_below
    split
    · rename_i above
      exact (toRat_lt_iff right_pos left_pos).mpr above
    · rename_i not_above
      apply le_antisymm
      · exact not_lt.mp (mt (toRat_lt_iff right_pos left_pos).mp not_above)
      · exact not_lt.mp (mt (toRat_lt_iff left_pos right_pos).mp not_below)

theorem eq_iff_parts : left = right ↔ left.num = right.num ∧ left.den = right.den := by
  cases left
  cases right
  simp

/-- A rational number has only one form in lowest terms. -/
theorem ofRat_toRat (normal : left.Normal) : ofRat left.toRat = left := by
  have den_pos : (0 : Int) < left.den := Int.natCast_pos.mpr normal.den_pos
  have num_eq : left.toRat.num = left.num := Rat.num_div_eq_of_coprime den_pos normal.coprime
  have den_eq : (left.toRat.den : Int) = left.den :=
    Rat.den_div_eq_of_coprime den_pos normal.coprime
  rw [ofRat, num_eq, Int.natCast_inj.mp den_eq]

theorem toRat_inj (left_normal : left.Normal) (right_normal : right.Normal) :
    left.toRat = right.toRat ↔ left = right := by
  constructor
  · intro same_number
    rw [← ofRat_toRat left_normal, same_number, ofRat_toRat right_normal]
  · rintro rfl
    rfl

theorem compare_eq_eq_iff (left_normal : left.Normal) (right_normal : right.Normal) :
    left.compare right = .eq ↔ left = right := by
  rw [compare_eq_cmp left_normal.den_pos right_normal.den_pos, cmp_eq_eq_iff]
  exact toRat_inj left_normal right_normal

/-- Different fractions have different texts. -/
theorem text_inj {range : Range} (left_storable : left.Storable range)
    (right_storable : right.Storable range) : left.text = right.text ↔ left = right := by
  constructor
  · intro same_text
    have left_read := read?_text left_storable
    rw [same_text, read?_text right_storable] at left_read
    exact (Option.some.inj left_read).symm
  · rintro rfl
    rfl

theorem precedes_iff (left_pos : 0 < left.den) (right_pos : 0 < right.den) :
    left.precedes right = true ↔ left.toRat < right.toRat := by
  rw [precedes, beq_iff_eq, compare_eq_cmp left_pos right_pos, cmp_eq_lt_iff]

theorem equals_iff (left_normal : left.Normal) (right_normal : right.Normal) :
    left.equals right = true ↔ left = right := by
  rw [equals, beq_iff_eq, compare_eq_eq_iff left_normal right_normal]

theorem differs_iff (left_normal : left.Normal) (right_normal : right.Normal) :
    left.differs right = true ↔ left ≠ right := by
  rw [differs, bne_iff_ne, ne_eq, compare_eq_eq_iff left_normal right_normal]

theorem isStrictTotalOrder_precedes (range : Range) :
    IsStrictTotalOrder { value : Fraction // value.Storable range }
      fun left right => left.1.precedes right.1 = true := by
  -- Fractions in lowest terms are embedded in the rational numbers.
  let embedding : (fun left right : { value : Fraction // value.Storable range } =>
      left.1.precedes right.1 = true) ↪r (fun left right : ℚ => left < right) :=
    { toFun := fun value => value.1.toRat
      inj' := by
        intro left right same_number
        apply Subtype.ext
        exact (toRat_inj left.2.normal right.2.normal).mp same_number
      map_rel_iff' := by
        intro left right
        exact (precedes_iff left.2.normal.den_pos right.2.normal.den_pos).symm }
  exact embedding.isStrictTotalOrder

theorem precedes_iff_cross :
    left.precedes right = true ↔ left.num * right.den < right.num * left.den := by
  rw [precedes, beq_iff_eq]
  simp only [compare]
  split
  · simp [*]
  · split <;> simp [*]

theorem precedes_zero_iff (value : Fraction) : value.precedes zero = true ↔ value.sign = -1 := by
  have cross_left : value.num * zero.den = value.num := Int.mul_one _
  have cross_right : zero.num * value.den = 0 := Int.zero_mul _
  rw [precedes_iff_cross, cross_left, cross_right, sign, Int.sign_eq_neg_one_iff_neg]

theorem zero_precedes_iff (value : Fraction) : zero.precedes value = true ↔ value.sign = 1 := by
  have cross_left : zero.num * value.den = 0 := Int.zero_mul _
  have cross_right : value.num * zero.den = value.num := Int.mul_one _
  rw [precedes_iff_cross, cross_left, cross_right, sign, Int.sign_eq_one_iff_pos]

theorem equals_zero_iff {value : Fraction} (normal : value.Normal) :
    value.equals zero = true ↔ value.sign = 0 := by
  have zero_normal : zero.Normal := normal_ofInt 0
  rw [equals_iff normal zero_normal, sign, Int.sign_eq_zero_iff_zero, num_eq_zero_iff normal]

end Fraction

namespace Numeral

/-- The number that a text spells. -/
def Denotes (text : Bytes) (number : ℚ) : Prop :=
  ∃ negative spelling, Written text negative spelling ∧ number = spelling.number negative

theorem denotes_iff {range : Range} {text : Bytes} {value : Fraction}
    (read : read? range text = some value) (number : ℚ) :
    Denotes text number ↔ value.toRat = number := by
  constructor
  · rintro ⟨negative, spelling, written, rfl⟩
    rw [(written.read?_eq_some_iff.mp read).2.2.2]
    exact Fraction.toRat_ofRat _
  · rintro rfl
    rcases exists_written_of_read? read with ⟨negative, spelling, written⟩
    refine ⟨negative, spelling, written, ?_⟩
    rw [(written.read?_eq_some_iff.mp read).2.2.2]
    exact Fraction.toRat_ofRat _

end Numeral

namespace Fraction

/--
The comparison of fractions in lowest terms is the order of the rational numbers, and a bounded
one needs no more than 128 bits. It tells no difference exactly between a fraction and itself,
and exactly between fractions with the same text. The relations that are taken from it make up
a total order, in which the sign tells on which side of zero a fraction lies. So two texts
from which numbers are read spell the same number exactly if what is read has the same text.
-/
theorem compare_orders_rationals (range : Range) :
    (∀ left right : Fraction, left.Storable range → right.Storable range →
      left.compare right = cmp left.toRat right.toRat ∧
        (range = .bounded → Wide.compare? left right = some (left.compare right)) ∧
        (left.compare right = .eq ↔ left.num = right.num ∧ left.den = right.den) ∧
        (left.compare right = .eq ↔ left.text = right.text) ∧
        (left.equals right = true ↔ left.toRat = right.toRat) ∧
        (left.differs right = true ↔ left.toRat ≠ right.toRat) ∧
        (left.precedes right = true ↔ left.toRat < right.toRat)) ∧
    IsStrictTotalOrder { value : Fraction // value.Storable range }
      (fun left right => left.1.precedes right.1 = true) ∧
    (∀ value : Fraction, value.Storable range →
      (value.precedes zero = true ↔ value.sign = -1) ∧
        (value.equals zero = true ↔ value.sign = 0) ∧
        (zero.precedes value = true ↔ value.sign = 1)) ∧
    ∀ (first second : Bytes) (left right : Fraction),
      Numeral.read? range first = some left → Numeral.read? range second = some right →
        ((∃ number, Numeral.Denotes first number ∧ Numeral.Denotes second number) ↔
          left.text = right.text) := by
  refine ⟨?_, isStrictTotalOrder_precedes range, ?_, ?_⟩
  · intro left right left_storable right_storable
    have left_normal := left_storable.normal
    have right_normal := right_storable.normal
    refine ⟨compare_eq_cmp left_normal.den_pos right_normal.den_pos, ?_, ?_, ?_, ?_, ?_, ?_⟩
    · rintro rfl
      exact Wide.compare?_eq left_storable.fits right_storable.fits
    · rw [compare_eq_eq_iff left_normal right_normal, eq_iff_parts]
    · rw [compare_eq_eq_iff left_normal right_normal, text_inj left_storable right_storable]
    · rw [equals_iff left_normal right_normal, toRat_inj left_normal right_normal]
    · rw [differs_iff left_normal right_normal, ne_eq, ne_eq, toRat_inj left_normal right_normal]
    · exact precedes_iff left_normal.den_pos right_normal.den_pos
  · intro value storable
    exact ⟨precedes_zero_iff value, equals_zero_iff storable.normal, zero_precedes_iff value⟩
  · intro first second left right first_read second_read
    have left_storable := storable_of_read? first_read
    have right_storable := storable_of_read? second_read
    simp only [Numeral.denotes_iff first_read, Numeral.denotes_iff second_read]
    rw [text_inj left_storable right_storable,
      ← toRat_inj left_storable.normal right_storable.normal]
    constructor
    · rintro ⟨number, left_eq, right_eq⟩
      exact left_eq.trans right_eq.symm
    · intro same_number
      exact ⟨right.toRat, same_number, rfl⟩

/-- The fractions with the largest cross products, and a half in two spellings. -/
theorem compare_orders_rationals_at_extremes :
    let least : Fraction := ⟨-0x8000000000000000, 0x7FFFFFFFFFFFFFFF⟩
    let greater : Fraction := ⟨0x7FFFFFFFFFFFFFFF, 0x7FFFFFFFFFFFFFFE⟩
    least.Storable .bounded ∧ greater.Storable .bounded ∧
      Wide.compare? least greater = some (least.compare greater) ∧
      (least.precedes greater = true ↔ least.toRat < greater.toRat) ∧
      (least.precedes zero = true ↔ least.sign = -1) ∧
      Numeral.read? .bounded (ascii "0.50") = some ⟨1, 2⟩ ∧
      Numeral.read? .bounded (ascii "+2/4") = some ⟨1, 2⟩ ∧
      ∃ number, Numeral.Denotes (ascii "0.50") number ∧ Numeral.Denotes (ascii "+2/4") number := by
  intro least greater
  have least_storable : least.Storable .bounded := by
    decide
  have greater_storable : greater.Storable .bounded := by
    decide
  have first_read : Numeral.read? .bounded (ascii "0.50") = some ⟨1, 2⟩ := by
    decide +kernel
  have second_read : Numeral.read? .bounded (ascii "+2/4") = some ⟨1, 2⟩ := by
    decide +kernel
  rcases compare_orders_rationals .bounded with ⟨ordered, -, signed, spelled⟩
  rcases ordered least greater least_storable greater_storable with
    ⟨-, narrow, -, -, -, -, precedes_iff⟩
  exact ⟨least_storable, greater_storable, narrow rfl, precedes_iff,
    (signed least least_storable).1, first_read, second_read,
    (spelled _ _ _ _ first_read second_read).mpr rfl⟩

end Fraction

end SpanMachine
