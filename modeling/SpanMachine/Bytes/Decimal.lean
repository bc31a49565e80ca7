import SpanMachine.Bytes.Basic

/-!
# Decimal text

Integers are written in base ten without leading zeros, a negative one after a
minus sign. Reading is more liberal: leading zeros are allowed, but a numeral
must hold at least one digit and nothing except digits.
-/

namespace SpanMachine

namespace Decimal

/-- The ASCII digit of a number below ten. -/
def digit (value : Nat) : UInt8 :=
  UInt8.ofNat (0x30 + value)

/-- The number an ASCII digit stands for. -/
def digitValue (byte : UInt8) : Nat :=
  byte.toNat - 0x30

/-- The decimal text of a natural number. -/
def ofNat (value : Nat) : Bytes :=
  if value < 10 then
    [digit value]
  else
    ofNat (value / 10) ++ [digit (value % 10)]
termination_by value
decreasing_by omega

/-- The decimal text of an integer. -/
def ofInt (value : Int) : Bytes :=
  if value < 0 then
    Byte.minus :: ofNat value.natAbs
  else
    ofNat value.natAbs

/-- The decimal text of a natural number with zeros in front up to the given width. -/
def padded (width value : Nat) : Bytes :=
  Bytes.padLeft (digit 0) width (ofNat value)

/-- At least one digit and nothing else. -/
def isNumeral (text : Bytes) : Bool :=
  !text.isEmpty && text.all Byte.isDigit

/-- The number that a string of digits denotes; no digits denote zero. -/
def value (text : Bytes) : Nat :=
  text.foldl (fun sum byte => 10 * sum + digitValue byte) 0

/-- Reads an unsigned 64-bit word from a numeral. -/
def readWord? (text : Bytes) : Option UInt64 :=
  if isNumeral text && decide (value text < UInt64.size) then
    some (UInt64.ofNat (value text))
  else
    none

end Decimal

end SpanMachine
