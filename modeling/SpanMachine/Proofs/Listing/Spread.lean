import SpanMachine.Proofs.Listing.Denotation
import SpanMachine.Proofs.Listing.Faults

/-!
# Rows above other rows

Rows without a body are found in two kinds of listings: blank lines that are inserted between
others, and labels that are printed on lines of their own. Either way a row is lowered by the
number of rows that are put above it and above the rows before it, and everything else depends
on the rows that are put in.
-/

namespace SpanMachine

namespace Listing

section Spread

variable {α : Type}

/-- The items of a list, each with further items above it. -/
def spread (above : Nat → List α) : List α → List α
  | [] => []
  | item :: rest => above 0 ++ item :: spread (fun index => above (index + 1)) rest

end Spread

end Listing

end SpanMachine
