import SpanMachine.Bytes.Basic

/-!
# Lines and tokens of a listing

A text falls into lines at its line feeds; a carriage return before a line feed, or at
the end of the text, does not belong to the line, and a final line feed does not
start another one. A line falls into tokens at whitespace, and a semicolon hides the
rest of the line.

Both are found by recursion on the text, from its end. A byte of a token joins the
token that begins in the next column, if there is one, and otherwise is a token by
itself.
-/

namespace SpanMachine

/-- A word of a line and the column of its first byte. -/
structure Token where
  text : Bytes
  column : Nat
  deriving DecidableEq

namespace Token

/-- The column of the last byte. -/
def lastColumn (token : Token) : Nat :=
  token.column + token.text.length - 1

/-- A byte in the column before the given tokens, as part of the first one if that is adjacent. -/
def attach (byte : UInt8) (column : Nat) : List Token → List Token
  | [] => [⟨[byte], column⟩]
  | next :: later =>
    if next.column = column + 1 then
      ⟨byte :: next.text, column⟩ :: later
    else
      ⟨[byte], column⟩ :: next :: later

end Token

namespace Listing

/-- Puts a byte in front of lines that are already split. -/
def prependByte (byte : UInt8) (lines : List Bytes) : List Bytes :=
  if byte = Byte.lineFeed then
    [] :: lines
  else
    match lines with
    | [] => [[byte]]
    | line :: rest => (byte :: line) :: rest

/-- Drops one carriage return from the end of a line. -/
def dropReturn (line : Bytes) : Bytes :=
  if line.getLast? = some Byte.carriageReturn then line.dropLast else line

/-- The lines of a text. -/
def lines (text : Bytes) : List Bytes :=
  (text.foldr prependByte []).map dropReturn

/-- The tokens of a text that starts in the given column. -/
def tokensFrom (column : Nat) : Bytes → List Token
  | [] => []
  | byte :: rest =>
    if byte = Byte.semicolon then
      []
    else if Byte.isSpace byte then
      tokensFrom (column + 1) rest
    else
      Token.attach byte column (tokensFrom (column + 1) rest)

/-- The tokens of a line. -/
def tokens (line : Bytes) : List Token :=
  tokensFrom 0 line

/-- A letter or an underscore, followed by letters, digits, underscores and dots. -/
def isLabelName : Bytes → Bool
  | [] => false
  | first :: rest =>
    (Byte.isLetter first || first == Byte.underscore) &&
      rest.all fun byte =>
        Byte.isLetter byte || Byte.isDigit byte || byte == Byte.underscore || byte == Byte.dot

end Listing

end SpanMachine
