import SpanMachine.Proofs.Listing.RoundTrip
import SpanMachine.Proofs.Listing.Spread

/-!
# A listing that is printed again no longer changes

The line on which an instruction is printed depends on nothing but its index and the labels up to
it. So a program that is read from its own listing has these lines for origins, whatever its
origins were before, and being read from its listing once more it stays the same.

A listing is the lines of its instructions, with the lines of labels above them. The line of an
instruction is its text, filled up to the width of the widest text so far, and a comment, which
ends in the origin. The texts and so the widths are those of any program that differs in its
origins alone.
-/

namespace SpanMachine

namespace Instruction

open Listing

/-- The comment of an instruction up to the origin. -/
def remark (index : Nat) : Bytes :=
  ascii "; " ++ Decimal.padded 4 index ++ ascii " line "

/-- The line of an instruction up to its comment. -/
def spaced (instruction : Instruction) (width : Nat) : Bytes :=
  Bytes.padRight width instruction.text ++ [Byte.space, Byte.space]

end Instruction

namespace Program

open Listing

/-- The labels from an index on, each in the given form. -/
def labelled {α : Type} (program : Program) (form : Bytes → α) (index offset : Nat) : List α :=
  (program.namesAt (index + offset)).map form

end Program

end SpanMachine
