import SpanMachine.Number.Arithmetic

/-!
# Numerals

A fraction is read from an optional sign followed by digits (`12`), by two strings
of digits around a slash (`7/3`) or by two strings of digits around a point (`2.50`).
The first slash decides, and a point matters only where there is no slash.

Each form is first turned into the digits of a numerator and of a denominator. A
point becomes a denominator of one followed by a zero for each digit after it.
-/

namespace SpanMachine

namespace Numeral

/-- Takes a leading sign off, and tells whether it was a minus. -/
def splitSign : Bytes → Bool × Bytes
  | [] => (false, [])
  | byte :: rest =>
    if byte = Byte.minus then
      (true, rest)
    else if byte = Byte.plus then
      (false, rest)
    else
      (false, byte :: rest)

/-- The digits of the numerator and of the denominator of an unsigned numeral. -/
def digits? (text : Bytes) : Option (Bytes × Bytes) :=
  if text.contains Byte.slash then
    let (num, den) := text.cutAt Byte.slash
    if Decimal.isNumeral num && Decimal.isNumeral den then some (num, den) else none
  else if text.contains Byte.dot then
    let (whole, places) := text.cutAt Byte.dot
    if Decimal.isNumeral whole && Decimal.isNumeral places then
      some (whole ++ places, Decimal.digit 1 :: List.replicate places.length (Decimal.digit 0))
    else
      none
  else if Decimal.isNumeral text then
    some (text, [Decimal.digit 1])
  else
    none

/-- Reads a fraction in lowest terms, if the text is a numeral that the range can hold. -/
def read? (range : Range) (text : Bytes) : Option Fraction := do
  let (negative, body) := splitSign text
  let (numDigits, denDigits) ← digits? body
  let num ← range.readDigits? numDigits
  let den ← range.readDigits? denDigits
  if den = 0 then
    none
  else
    (Fraction.reduce range (if negative then -num else num) den).toOption

end Numeral

end SpanMachine
