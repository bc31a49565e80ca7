import SpanMachine.Proofs.Listing.Denotation

/-!
# One listing below another

Two texts that can be read, without a name in common, can be read as one. Rows below others
keep what they state, but for two things: their numbers are counted on, and so are the places of
their names. Hence the instructions of the lower text have later origins, and their targets are
later where they were given by name. A target that was given by a numeral leads to where it led
before, which may now be an instruction of the upper text.
-/

namespace SpanMachine

namespace Instruction

end Instruction

/-- The same name, a number of instructions further down. -/
def Label.lowered (label : Label) (size : Nat) : Label :=
  { label with index := label.index + size }

namespace Program

end Program

namespace Listing

namespace Entry

end Entry

section Append

variable {upper lower : List (List Bytes)} (apart : ∀ name ∈ names upper, name ∉ names lower)
include apart

end Append

end Listing

namespace Program

open Listing

end Program

end SpanMachine
