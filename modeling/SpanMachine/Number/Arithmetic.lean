import SpanMachine.Answer
import SpanMachine.Number.Fraction

/-!
# Arithmetic on fractions

Every operation forms an exact numerator and denominator, reduces them to lowest
terms and only then asks whether the range admits the two parts. A result that it
does not admit, and a quotient by zero, are answered by a cursed zero.
-/

namespace SpanMachine

/-- The four operators that join two fractions. -/
inductive Operator where
  | add
  | sub
  | mul
  | div
  deriving DecidableEq

namespace Fraction

/-- The answer of an operation that has no representable result. -/
def curse : Answer Fraction :=
  ⟨zero, true⟩

/-- The same quotient over a denominator that is not negative. -/
def orient (num den : Int) : Int × Int :=
  if den < 0 then (-num, -den) else (num, den)

/--
The fraction of a numerator and a denominator other than zero, in lowest terms.
The greatest common divisor of zero and the denominator is the denominator, so that
zero becomes `0/1`.
-/
def reduce (range : Range) (num den : Int) : Answer Fraction :=
  let (num, den) := orient num den
  let divisor := range.gcd num den
  let reducedNum := num / divisor
  let reducedDen := den / divisor
  if range.Admits reducedNum ∧ range.Admits reducedDen then
    ⟨⟨reducedNum, reducedDen.toNat⟩, false⟩
  else
    curse

/-- The result of an operator before reduction, as a numerator and a denominator. -/
def combined (left right : Fraction) : Operator → Int × Int
  | .add => (left.num * right.den + right.num * left.den, left.den * right.den)
  | .sub => (left.num * right.den - right.num * left.den, left.den * right.den)
  | .mul => (left.num * right.num, left.den * right.den)
  | .div => (left.num * right.den, left.den * right.num)

/-- Joins two fractions by an operator. -/
def combine (range : Range) (operator : Operator) (left right : Fraction) : Answer Fraction :=
  if operator = .div ∧ right.num = 0 then
    curse
  else
    let (num, den) := combined left right operator
    reduce range num den

/-- The fraction with the opposite sign. -/
def negate (range : Range) (fraction : Fraction) : Answer Fraction :=
  reduce range (-fraction.num) fraction.den

/-- The integer that an instruction spells out as its magnitude. -/
def ofMagnitude (range : Range) (magnitude : UInt64) : Answer Fraction :=
  if range.Admits magnitude.toNat then ⟨ofInt magnitude.toNat, false⟩ else curse

end Fraction

end SpanMachine
