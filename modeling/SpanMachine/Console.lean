import SpanMachine.Bytes.Utf8

/-!
# The console

A program sees the outside world as the bytes it has not read yet and the bytes it
has written. It reads either a word, which is a run of bytes between whitespace, or
one code point; a word leaves the whitespace after it unread.
-/

namespace SpanMachine

/-- The input that is left and the output so far. -/
structure Console where
  unread : Bytes
  output : Bytes := []
  deriving DecidableEq

namespace Console

/-- Skips whitespace and reads the bytes up to the next whitespace. -/
def readWord (console : Console) : Option Bytes × Console :=
  let rest := console.unread.dropWhile Byte.isSpace
  let word := rest.takeWhile (!Byte.isSpace ·)
  let left := rest.dropWhile (!Byte.isSpace ·)
  (if word.isEmpty then none else some word, { console with unread := left })

/-- Reads one code point. Malformed input is consumed and read as nothing. -/
def readPoint (console : Console) : Option Nat × Console :=
  let (point, left) := Utf8.decode console.unread
  (point, { console with unread := left })

/-- Writes a text as it is. -/
def write (console : Console) (text : Bytes) : Console :=
  { console with output := console.output ++ text }

@[simp]
theorem output_write (console : Console) (text : Bytes) :
    (console.write text).output = console.output ++ text :=
  rfl

@[simp]
theorem unread_write (console : Console) (text : Bytes) :
    (console.write text).unread = console.unread :=
  rfl

/-- Writes one code point. -/
def writePoint (console : Console) (point : Nat) : Console :=
  console.write (Utf8.encode point)

end Console

end SpanMachine
