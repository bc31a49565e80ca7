import SpanMachine.Bytes.Decimal
import SpanMachine.Listing.Line

/-!
# Faults in a listing

A listing that cannot be read has one fault, with the place where it stands: the
number of the line, counted from zero, and the columns from the first to the last
byte of the offending text.
-/

namespace SpanMachine

/-- What an operand in a listing stands for. -/
inductive Operand where
  | span
  | magnitude
  | target
  deriving DecidableEq

/-- Why a listing cannot be read. -/
inductive Fault where
  | invalidLabel (name : Bytes)
  | duplicateLabel (name : Bytes)
  | unknownMnemonic (word : Bytes)
  | operandCount (word : Bytes) (expected given : Nat)
  | malformed (operand : Operand) (word : Bytes)
  | undefinedLabel (name : Bytes)
  deriving DecidableEq

/-- A fault and its place. -/
structure ListingError where
  fault : Fault
  line : Nat
  firstColumn : Nat
  lastColumn : Nat
  deriving DecidableEq

namespace Operand

/-- The word for an operand in a message. -/
def name : Operand → Bytes
  | span => ascii "span"
  | magnitude => ascii "magnitude"
  | target => ascii "target"

end Operand

namespace Fault

/-- A word between a grave accent and an apostrophe. -/
def quote (word : Bytes) : Bytes :=
  ascii "`" ++ word ++ ascii "'"

/-- The full wording of a fault. -/
def wording : Fault → Bytes
  | invalidLabel name => ascii "invalid label name " ++ quote name
  | duplicateLabel name => ascii "label " ++ quote name ++ ascii " defined twice"
  | unknownMnemonic word => ascii "unknown mnemonic " ++ quote word
  | operandCount word expected given =>
    word ++ ascii " takes " ++ Decimal.ofNat expected ++ ascii " operand(s), got " ++
      Decimal.ofNat given
  | malformed operand word => ascii "malformed " ++ operand.name ++ ascii " " ++ quote word
  | undefinedLabel name => ascii "undefined label " ++ quote name

/-- The wording as it is shown, up to a NUL byte in a quoted word. -/
def message (fault : Fault) : Bytes :=
  fault.wording.upToNul

end Fault

namespace Token

/-- A fault of the whole token. -/
def error (token : Token) (line : Nat) (fault : Fault) : ListingError :=
  ⟨fault, line, token.column, token.lastColumn⟩

end Token

end SpanMachine
