import SpanMachine.Proofs.Number.Exactness

/-!
# Numbers that a machine may store

A fraction may be stored if it is in lowest terms and the range admits both its parts. All
fractions that a machine ever computes with are of this kind: zero and the literals that the
range admits are integers, and operators and numerals end in a reduction, which answers with
lowest terms or with a cursed zero.
-/

namespace SpanMachine

namespace Range

theorem admits_natCast (range : Range) {number : Nat} (small : number ≤ 0x7FFFFFFFFFFFFFFF) :
    range.Admits number := by
  cases range with
  | bounded =>
      simp only [Admits]
      omega
  | unbounded => trivial

end Range

namespace Fraction

/-- Lowest terms, with both parts in the range. -/
structure Storable (range : Range) (value : Fraction) : Prop where
  normal : value.Normal
  fits : value.Fits range

theorem storable_iff {range : Range} {value : Fraction} :
    value.Storable range ↔
      (0 < value.den ∧ Nat.gcd value.num.natAbs value.den = 1) ∧
        range.Admits value.num ∧ range.Admits value.den := by
  constructor
  · rintro ⟨⟨den_pos, coprime⟩, num, den⟩
    exact ⟨⟨den_pos, coprime⟩, num, den⟩
  · rintro ⟨⟨den_pos, coprime⟩, num, den⟩
    exact ⟨⟨den_pos, coprime⟩, num, den⟩

instance (range : Range) (value : Fraction) : Decidable (value.Storable range) :=
  decidable_of_iff _ storable_iff.symm

theorem normal_ofInt (value : Int) : (ofInt value).Normal :=
  ⟨Nat.one_pos, Nat.gcd_one_right _⟩

theorem storable_ofInt {range : Range} {value : Int} (admitted : range.Admits value) :
    (ofInt value).Storable range := by
  have den_admitted : range.Admits (1 : Nat) := range.admits_natCast (by decide)
  exact ⟨normal_ofInt value, admitted, den_admitted⟩

theorem storable_zero (range : Range) : zero.Storable range :=
  storable_ofInt (range.admits_natCast (Nat.zero_le _))

theorem storable_ofMagnitude (range : Range) (magnitude : UInt64) :
    (ofMagnitude range magnitude).value.Storable range := by
  rw [ofMagnitude]
  split
  · rename_i admitted
    exact storable_ofInt admitted
  · exact storable_zero range

theorem storable_reduce (range : Range) (num : Int) {den : Int} (den_ne_zero : den ≠ 0) :
    (reduce range num den).value.Storable range := by
  rw [reduce_eq_ofRat range num den_ne_zero]
  split
  · rename_i admitted
    exact ⟨normal_ofRat _, admitted.1, admitted.2⟩
  · exact storable_zero range

theorem storable_combine {range : Range} {left right : Fraction}
    (left_storable : left.Storable range) (right_storable : right.Storable range)
    (operator : Operator) : (combine range operator left right).value.Storable range := by
  rw [combine]
  split
  · exact storable_zero range
  · rename_i not_by_zero
    apply storable_reduce
    exact combined_den_ne_zero left_storable.normal.den_pos right_storable.normal.den_pos
      not_by_zero

theorem storable_of_read? {range : Range} {text : Bytes} {value : Fraction}
    (read : Numeral.read? range text = some value) : value.Storable range := by
  rcases Numeral.read?_eq_some_iff.mp read with
    ⟨num, den, numValue, denValue, -, -, -, den_ne_zero, reduced⟩
  have storable := storable_reduce range
    (if (Numeral.splitSign text).1 then -numValue else numValue)
    (Int.natCast_ne_zero.mpr den_ne_zero)
  rw [reduced] at storable
  exact storable

end Fraction

end SpanMachine
