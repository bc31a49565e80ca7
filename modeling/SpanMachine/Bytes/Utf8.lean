import SpanMachine.Bytes.Basic

/-!
# UTF-8

Code points are natural numbers. Encoding takes the length of a sequence from the
size of the code point and validates nothing. Decoding reads one sequence from the
front of a text: it believes the lead byte about the number of continuation bytes,
gathers them, and then refuses values that a shorter sequence could have held or
that are no scalar values.

A refused sequence is still consumed: its lead byte and the continuation bytes that
were gathered, but never the byte that broke it off.
-/

namespace SpanMachine

namespace Utf8

/-- Code points up to `0x10FFFF` other than the surrogates. -/
def IsScalar (point : Nat) : Prop :=
  point < 0xD800 ∨ (0xDFFF < point ∧ point ≤ 0x10FFFF)

instance (point : Nat) : Decidable (IsScalar point) :=
  inferInstanceAs (Decidable (_ ∨ _))

/-- A continuation byte carries the six lowest bits of a value. -/
def continuation (value : Nat) : UInt8 :=
  UInt8.ofNat (0x80 + value % 0x40)

/-- The sequence of a code point. A four-byte lead keeps only its eight lowest bits. -/
def encode (point : Nat) : Bytes :=
  if point < 0x80 then
    [UInt8.ofNat point]
  else if point < 0x800 then
    [UInt8.ofNat (0xC0 + point / 0x40), continuation point]
  else if point < 0x10000 then
    [UInt8.ofNat (0xE0 + point / 0x1000), continuation (point / 0x40), continuation point]
  else
    [UInt8.ofNat (0xF0 ||| point / 0x40000), continuation (point / 0x1000),
      continuation (point / 0x40), continuation point]

/-- A byte that can only stand inside a sequence. -/
def isContinuation (byte : UInt8) : Bool :=
  0x80 ≤ byte && byte < 0xC0

/-- The number of continuation bytes that a lead byte announces. -/
def announced? (lead : UInt8) : Option Nat :=
  if lead < 0x80 then
    some 0
  else if lead < 0xC0 then
    none
  else if lead < 0xE0 then
    some 1
  else if lead < 0xF0 then
    some 2
  else if lead < 0xF8 then
    some 3
  else
    none

/-- The bits that a lead byte contributes, given how many bytes it announces. -/
def leadBits (lead : UInt8) : Nat → Nat
  | 0 => lead.toNat % 0x80
  | 1 => lead.toNat % 0x20
  | 2 => lead.toNat % 0x10
  | _ => lead.toNat % 0x08

/-- The least code point that needs the given number of continuation bytes. -/
def least : Nat → Nat
  | 0 => 0
  | 1 => 0x80
  | 2 => 0x800
  | _ => 0x10000

/-- Adds the bits of the given number of continuation bytes, and returns what follows them. -/
def gather : Nat → Nat → Bytes → Option Nat × Bytes
  | 0, bits, text => (some bits, text)
  | _ + 1, _, [] => (none, [])
  | count + 1, bits, byte :: rest =>
    if isContinuation byte then
      gather count (bits * 0x40 + byte.toNat % 0x40) rest
    else
      (none, byte :: rest)

/-- Reads one code point from the front of a text, and returns what follows it. -/
def decode : Bytes → Option Nat × Bytes
  | [] => (none, [])
  | lead :: rest =>
    match announced? lead with
    | none => (none, rest)
    | some count =>
      let (bits?, left) := gather count (leadBits lead count) rest
      (bits?.filter fun point => least count ≤ point ∧ IsScalar point, left)

end Utf8

end SpanMachine
