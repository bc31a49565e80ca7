import SpanMachine.Listing.Fault

/-!
# Diagnostics

A diagnostic names the part of the program that speaks, how grave the matter is, and
what is the matter. One that concerns a listing also shows the line in question under
the line above it, with the offending columns in bold and marked by carets below.

Names, messages and the line above are shown up to their first NUL byte; the line in
question is shown byte by byte. Colours are written as terminal escape sequences.
-/

namespace SpanMachine

namespace Style

def bold : Bytes :=
  ascii "\x1b[1m"

def red : Bytes :=
  ascii "\x1b[31m"

def yellow : Bytes :=
  ascii "\x1b[33m"

def magenta : Bytes :=
  ascii "\x1b[35m"

def reset : Bytes :=
  ascii "\x1b[0m"

end Style

/-- How grave a diagnostic is. -/
inductive Severity where
  | warning
  | error
  | info
  deriving DecidableEq

namespace Severity

/-- The coloured name of a severity. -/
def tag : Severity → Bytes
  | warning => Style.magenta ++ ascii "WARNING" ++ Style.reset
  | error => Style.red ++ ascii "ERROR" ++ Style.reset
  | info => Style.yellow ++ ascii "INFO" ++ Style.reset

end Severity

/-- A place in a text, counted from zero. Places outside the text are allowed. -/
structure Position where
  line : Int
  column : Int
  deriving DecidableEq

/-- The text from one place to another, both included. -/
structure Extent where
  first : Position
  last : Position
  deriving DecidableEq

/-- A message to the user. -/
structure Diagnostic where
  severity : Severity
  domain : Bytes
  message : Bytes
  deriving DecidableEq

namespace Extent

/-- The offending text of a listing. -/
def ofError (error : ListingError) : Extent :=
  ⟨⟨error.line, error.firstColumn⟩, ⟨error.line, error.lastColumn⟩⟩

/-- A byte of the line in question, with bold type switched on before it or off after it. -/
def styled (extent : Extent) : UInt8 × Nat → Bytes
  | (byte, column) =>
    (if (column : Int) = extent.first.column then Style.bold else []) ++ [byte] ++
      (if extent.first.line = extent.last.line ∧ (column : Int) = extent.last.column then
        Style.reset
      else
        [])

/-- The mark below a column. -/
def mark (extent : Extent) (column : Nat) : UInt8 :=
  if extent.first.column ≤ column ∧ (column : Int) ≤ extent.last.column then
    Byte.caret
  else
    Byte.space

/-- What stands before a line without a number. -/
def margin : Bytes :=
  ascii "     |\t"

/-- The line above the one in question. -/
def aboveRow (line : Bytes) : Bytes :=
  margin ++ line.upToNul ++ [Byte.lineFeed]

/-- The line in question after its number. -/
def lineRow (extent : Extent) (number : Nat) (line : Bytes) : Bytes :=
  ascii " " ++ Bytes.padLeft Byte.space 3 (Decimal.ofNat number) ++ ascii " |\t" ++
    line.zipIdx.flatMap extent.styled ++ Style.reset ++ [Byte.lineFeed]

/-- The carets below the line in question. -/
def caretRow (extent : Extent) (line : Bytes) : Bytes :=
  margin ++ (List.range line.length).map extent.mark ++ [Byte.lineFeed]

/-- The line in question in its context, if it is one of the lines. -/
def context (extent : Extent) (lines : List Bytes) : Bytes :=
  if extent.first.line < 0 then
    []
  else
    let index := extent.first.line.toNat
    match lines[index]? with
    | none => []
    | some line =>
      (if index = 0 then [] else aboveRow (lines.getD (index - 1) [])) ++
        extent.lineRow (index + 1) line ++ extent.caretRow line

end Extent

namespace Diagnostic

/-- The diagnostic on a line of its own. -/
def text (diagnostic : Diagnostic) : Bytes :=
  diagnostic.domain.upToNul ++ ascii " " ++ diagnostic.severity.tag ++ ascii ": " ++
    diagnostic.message.upToNul ++ [Byte.lineFeed]

/-- The diagnostic after its place in a file, followed by the lines of that place. -/
def textAt (diagnostic : Diagnostic) (path : Bytes) (lines : List Bytes) (extent : Extent) :
    Bytes :=
  Style.bold ++ path.upToNul ++ ascii ":" ++ Decimal.ofInt (extent.first.line + 1) ++ ascii ":" ++
    Decimal.ofInt (extent.first.column + 1) ++ ascii ": " ++ Style.reset ++ diagnostic.text ++
    extent.context lines

end Diagnostic

namespace ListingError

/-- The diagnostic of a listing that cannot be read. -/
def text (error : ListingError) (path : Bytes) (lines : List Bytes) : Bytes :=
  Diagnostic.textAt ⟨.error, ascii "LISTING", error.fault.message⟩ path lines (.ofError error)

end ListingError

end SpanMachine
