import SpanMachine.Number.Range

/-!
# Fractions

A fraction is stored as it is written: a numerator and a denominator. Being in
lowest terms is a property of a fraction and not part of its type, so that the
arithmetic can be shown to establish it.
-/

namespace SpanMachine

/-- A signed numerator over a denominator. -/
structure Fraction where
  num : Int
  den : Nat
  deriving DecidableEq

namespace Fraction

/-- Zero, the stand-in for every value that does not exist. -/
def zero : Fraction :=
  ⟨0, 1⟩

/-- An integer as a fraction. -/
def ofInt (value : Int) : Fraction :=
  ⟨value, 1⟩

/-- Lowest terms over a positive denominator. Zero is then stored as `0/1`. -/
structure Normal (fraction : Fraction) : Prop where
  den_pos : 0 < fraction.den
  coprime : Nat.gcd fraction.num.natAbs fraction.den = 1

/-- Both parts of the fraction can be stored. -/
structure Fits (range : Range) (fraction : Fraction) : Prop where
  num : range.Admits fraction.num
  den : range.Admits fraction.den

/-- The sign of a fraction: -1, 0 or 1. -/
def sign (fraction : Fraction) : Int :=
  fraction.num.sign

/-- An integer is stored over the denominator one. -/
def toInt? (fraction : Fraction) : Option Int :=
  if fraction.den = 1 then some fraction.num else none

/-- The unsigned 64-bit word equal to the fraction, if there is one. -/
def toWord? (fraction : Fraction) : Option UInt64 :=
  match fraction.toInt? with
  | some value =>
    if 0 ≤ value ∧ value < UInt64.size then some (UInt64.ofNat value.toNat) else none
  | none => none

/-- Compares by the cross products, which keep the order since denominators are positive. -/
def compare (left right : Fraction) : Ordering :=
  let crossLeft := left.num * right.den
  let crossRight := right.num * left.den
  if crossLeft < crossRight then .lt else if crossRight < crossLeft then .gt else .eq

/-- Whether a comparison tells no difference. -/
def equals (left right : Fraction) : Bool :=
  left.compare right == .eq

/-- Whether a comparison tells a difference. -/
def differs (left right : Fraction) : Bool :=
  left.compare right != .eq

/-- Whether a comparison puts one fraction before another. -/
def precedes (left right : Fraction) : Bool :=
  left.compare right == .lt

/-- The numerator, followed by a slash and the denominator unless that is one. -/
def text (fraction : Fraction) : Bytes :=
  match fraction.toInt? with
  | some value => Decimal.ofInt value
  | none => Decimal.ofInt fraction.num ++ Byte.slash :: Decimal.ofNat fraction.den

end Fraction

end SpanMachine
