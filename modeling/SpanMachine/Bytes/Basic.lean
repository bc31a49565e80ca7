/-!
# Bytes

All text is a list of bytes: listings, console input and output, diagnostics and
file names. No encoding is assumed of it, so a NUL or a byte above 127 is a byte
like any other. Character classes are those of ASCII.
-/

namespace SpanMachine

/-- Text as the bytes it is stored in. -/
abbrev Bytes := List UInt8

/-- The bytes of a text of ASCII characters. -/
def ascii (text : String) : Bytes :=
  text.toList.map fun char => UInt8.ofNat char.toNat

namespace Byte

def nul : UInt8 := 0x00

def tab : UInt8 := 0x09

def lineFeed : UInt8 := 0x0A

def carriageReturn : UInt8 := 0x0D

def space : UInt8 := 0x20

def plus : UInt8 := 0x2B

def minus : UInt8 := 0x2D

def dot : UInt8 := 0x2E

def slash : UInt8 := 0x2F

def colon : UInt8 := 0x3A

def semicolon : UInt8 := 0x3B

def caret : UInt8 := 0x5E

def underscore : UInt8 := 0x5F

/-- The space and the five controls from horizontal tab to carriage return. -/
def isSpace (byte : UInt8) : Bool :=
  byte == 0x20 || (0x09 ≤ byte && byte ≤ 0x0D)

/-- The ten ASCII digits. -/
def isDigit (byte : UInt8) : Bool :=
  0x30 ≤ byte && byte ≤ 0x39

/-- The ASCII letters of both cases. -/
def isLetter (byte : UInt8) : Bool :=
  (0x41 ≤ byte && byte ≤ 0x5A) || (0x61 ≤ byte && byte ≤ 0x7A)

end Byte

namespace Bytes

/-- The part before the first NUL byte, or everything if there is none. -/
def upToNul (text : Bytes) : Bytes :=
  text.takeWhile (· != Byte.nul)

/-- Filled up with spaces on the right to at least the given width. -/
def padRight (width : Nat) (text : Bytes) : Bytes :=
  text ++ List.replicate (width - text.length) Byte.space

/-- Filled up on the left with the given byte to at least the given width. -/
def padLeft (filler : UInt8) (width : Nat) (text : Bytes) : Bytes :=
  List.replicate (width - text.length) filler ++ text

/-- The part before the first occurrence of a byte, and the part after it. -/
def cutAt (mark : UInt8) (text : Bytes) : Bytes × Bytes :=
  (text.takeWhile (· != mark), (text.dropWhile (· != mark)).drop 1)

end Bytes

end SpanMachine
