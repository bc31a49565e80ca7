import SpanMachine.Bytes.Decimal

/-!
# Number ranges

A run computes either with signed 64-bit integers or with integers of any size.
The two ranges differ in which results are representable, in how digits are read
and in how common divisors are found; everything above this module takes the
range as a parameter, so that one definition serves both.

The bounded range reduces with a remainder loop of its own and reads digits under
a ceiling. The unbounded one relies on the greatest common divisor of integers
and reads any numeral.
-/

namespace SpanMachine

/-- The integers a run may store. -/
inductive Range where
  | bounded
  | unbounded
  deriving DecidableEq

namespace Range

/-- A bounded run stores signed 64-bit integers, an unbounded one stores them all. -/
def Admits : Range → Int → Prop
  | bounded, value => -0x8000000000000000 ≤ value ∧ value ≤ 0x7FFFFFFFFFFFFFFF
  | unbounded, _ => True

instance (range : Range) (value : Int) : Decidable (range.Admits value) :=
  match range with
  | bounded => inferInstanceAs (Decidable (_ ∧ _))
  | unbounded => inferInstanceAs (Decidable True)

/-- Replaces the pair `(a, b)` by `(b, a % b)` until the second part is zero. -/
def remainderLoop (a b : Nat) : Nat :=
  if b = 0 then a else remainderLoop b (a % b)
termination_by b
decreasing_by exact Nat.mod_lt a (by omega)

theorem remainderLoop_eq_gcd (a b : Nat) : remainderLoop a b = Nat.gcd a b := by
  fun_induction remainderLoop a b with
  | case1 a => simp
  | case2 a b _ ih => rw [ih, Nat.gcd_comm a b, Nat.gcd_rec b a, Nat.gcd_comm]

/-- The greatest common divisor of two integers, never negative. -/
def gcd : Range → Int → Int → Nat
  | bounded, a, b => remainderLoop a.natAbs b.natAbs
  | unbounded, a, b => Int.gcd a b

/-- The greatest number that bounded reading may build up from digits, `2 ^ 127 - 1`. -/
def ceiling : Nat :=
  0x7FFFFFFFFFFFFFFFFFFFFFFFFFFFFFFF

/-- Appends one digit to a number, unless the byte is no digit or the ceiling is passed. -/
def appendDigit? (sum : Nat) (byte : UInt8) : Option Nat :=
  if Byte.isDigit byte && decide (10 * sum + Decimal.digitValue byte ≤ ceiling) then
    some (10 * sum + Decimal.digitValue byte)
  else
    none

/--
Reads a string of digits. Bounded reading goes digit by digit under the ceiling and
takes the empty string for zero; unbounded reading wants a numeral.
-/
def readDigits? : Range → Bytes → Option Nat
  | bounded, text => text.foldlM appendDigit? 0
  | unbounded, text => if Decimal.isNumeral text then some (Decimal.value text) else none

end Range

end SpanMachine
