import SpanMachine.Proofs.Listing.Reading

/-!
# The program of a listing in closed form

Once the places of all names are known, every body states its instruction by itself. So the
program that rows denote can be computed from them at once, and a text is read exactly if its
rows are grammatical, and then as that program. Nothing is asked about the number of rows.

Relations between listings are thereby reduced to relations between their rows: how the bodies
and their line numbers, the names and the places of the names differ.
-/

namespace SpanMachine

namespace Listing

namespace Entry

/-- The opcode of a body. The default is never met in a listing that can be read. -/
def opcode (entry : Entry) : Opcode :=
  (Opcode.ofMnemonic? entry.mnemonic).getD .halt

/-- The word in the place of an operand. -/
def word? (entry : Entry) (operand : Operand) : Option Bytes :=
  (entry.opcode.operands.zip entry.operands).lookup operand

end Entry

/-- The number that a word stands for where names have the given places. -/
def number (places : Bytes → Nat) (word : Bytes) : UInt64 :=
  UInt64.ofNat (if isLabelName word then places word else Decimal.value word)

/-- The instruction that a body states. What it does not spell out is zero. -/
def Entry.instruction (places : Bytes → Nat) (entry : Entry) : Instruction where
  opcode := entry.opcode
  span := ((entry.word? .span).map (number places)).getD 0
  magnitude := (((entry.word? .magnitude).or (entry.word? .target)).map (number places)).getD 0
  origin := entry.line + 1

/-- The program that rows denote. -/
def denoted (rows : List (List Bytes)) : Program where
  code := (entries rows).map (Entry.instruction (place rows))
  labels := (names rows).map fun name => ⟨place rows name, name⟩

/-- The same body, a number of rows further down. -/
def Entry.lowered (entry : Entry) (count : Nat) : Entry :=
  { entry with line := entry.line + count }

theorem opcode_of_mnemonic {entry : Entry} {opcode : Opcode}
    (mnemonic : opcode.mnemonic = entry.mnemonic) : entry.opcode = opcode := by
  rw [Entry.opcode, Opcode.ofMnemonic?_eq_some_iff.mpr mnemonic, Option.getD_some]

theorem Entry.mem_zip_of_word? {entry : Entry} {operand : Operand} {word : Bytes}
    (word_at : entry.word? operand = some word) :
    (operand, word) ∈ entry.opcode.operands.zip entry.operands := by
  rcases List.lookup_eq_some_iff.mp word_at with ⟨front, back, zip_eq, -⟩
  rw [zip_eq]
  simp

/-- A word of a well-formed body is acceptable in its place. -/
theorem Entry.IsFormed.accepts {defined : Bytes → Prop} {entry : Entry}
    (formed : entry.IsFormed defined) {operand : Operand} {word : Bytes}
    (word_at : entry.word? operand = some word) : Accepts defined operand word := by
  rcases formed with ⟨opcode, mnemonic, accepted⟩
  have word_mem := Entry.mem_zip_of_word? word_at
  rw [opcode_of_mnemonic mnemonic] at word_mem
  exact List.forall₂_zip accepted word_mem

end Listing

namespace Statement

open Listing

end Statement

namespace Listing

end Listing

namespace Draft

open Listing

end Draft

namespace Program

open Listing

end Program

end SpanMachine
