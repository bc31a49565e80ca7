import SpanMachine.Console
import SpanMachine.Proofs.Bytes.Utf8

/-!
# Reading a console to its end

A word is found behind any amount of whitespace and ends in front of the next whitespace,
which stays unread. Whitespace alone holds no word.

Code points can be read one after another until nothing is left, since every read takes at
least one byte. The sequences of scalar values come back as these values, whatever follows
them, so a text that is made of such sequences is read without a refusal. An ASCII text is
made of them, one for each byte.
-/

namespace SpanMachine

namespace Bytes

variable {accepts : UInt8 → Bool} {body rest : Bytes}

theorem dropWhile_append_of_head? (inside : ∀ byte ∈ body, accepts byte = true)
    (ends : ∀ byte ∈ rest.head?, accepts byte = false) :
    (body ++ rest).dropWhile accepts = rest := by
  rw [List.dropWhile_append_of_pos inside]
  cases rest with
  | nil => rfl
  | cons first others => simp [ends first rfl]

theorem takeWhile_append_of_head? (inside : ∀ byte ∈ body, accepts byte = true)
    (ends : ∀ byte ∈ rest.head?, accepts byte = false) :
    (body ++ rest).takeWhile accepts = body := by
  rw [List.takeWhile_append_of_pos inside]
  cases rest with
  | nil => simp
  | cons first others => simp [ends first rfl]

end Bytes

namespace Console

theorem readWord_of_blank {gap word rest : Bytes} (blank : ∀ byte ∈ gap, Byte.isSpace byte = true)
    (word_ne_nil : word ≠ []) (no_space : ∀ byte ∈ word, Byte.isSpace byte = false)
    (ends : ∀ byte ∈ rest.head?, Byte.isSpace byte = true) (output : Bytes) :
    (Console.mk (gap ++ word ++ rest) output).readWord = (some word, ⟨rest, output⟩) := by
  have inside : ∀ byte ∈ word, (!Byte.isSpace byte) = true := by
    intro byte byteMem
    rw [no_space byte byteMem]
    rfl
  have outside : ∀ byte ∈ rest.head?, (!Byte.isSpace byte) = false := by
    intro byte byteMem
    rw [ends byte byteMem]
    rfl
  have starts : ∀ byte ∈ (word ++ rest).head?, Byte.isSpace byte = false := by
    rcases List.exists_cons_of_ne_nil word_ne_nil with ⟨first, others, rfl⟩
    rintro byte ⟨⟩
    exact no_space first List.mem_cons_self
  rw [List.append_assoc]
  simp [readWord, Bytes.dropWhile_append_of_head? blank starts,
    Bytes.takeWhile_append_of_head? inside outside,
    Bytes.dropWhile_append_of_head? inside outside, word_ne_nil]

theorem readWord_blank {gap : Bytes} (blank : ∀ byte ∈ gap, Byte.isSpace byte = true)
    (output : Bytes) : (Console.mk gap output).readWord = (none, ⟨[], output⟩) := by
  have skipped : gap.dropWhile Byte.isSpace = [] := List.dropWhile_eq_nil_iff.mpr blank
  simp [readWord, skipped]

theorem unread_readWord_suffix (console : Console) :
    console.readWord.2.unread <:+ console.unread := by
  apply List.IsSuffix.trans
  · exact List.dropWhile_suffix _
  · exact List.dropWhile_suffix _

theorem unread_readPoint_suffix (console : Console) :
    console.readPoint.2.unread <:+ console.unread :=
  Utf8.decode_snd_suffix console.unread

theorem length_unread_readPoint_lt {console : Console} (unread_ne_nil : console.unread ≠ []) :
    console.readPoint.2.unread.length < console.unread.length := by
  rcases List.exists_cons_of_ne_nil unread_ne_nil with ⟨lead, text, unread_eq⟩
  have left : console.readPoint.2.unread = (Utf8.decode (lead :: text)).2 := by
    rw [← unread_eq]
    rfl
  rw [left, unread_eq, Utf8.decode_cons_snd, List.length_drop, List.length_cons]
  omega

/--
What reading code points reports until the input is exhausted. A malformed sequence is
reported as nothing.
-/
def points (console : Console) : List (Option Nat) :=
  if console.unread = [] then
    []
  else
    console.readPoint.1 :: console.readPoint.2.points
termination_by console.unread.length
decreasing_by
  rename_i unread_ne_nil
  exact length_unread_readPoint_lt unread_ne_nil

example : (Console.mk [0xE2, 0x82, 0x41, 0xC2, 0xA9] []).points = [none, some 0x41, some 0xA9] := by
  decide +kernel

theorem points_nil (output : Bytes) : (Console.mk [] output).points = [] := by
  rw [points]
  simp

theorem points_encode_append {point : Nat} (scalar : Utf8.IsScalar point) (rest output : Bytes) :
    (Console.mk (Utf8.encode point ++ rest) output).points =
      some point :: (Console.mk rest output).points := by
  have decoded : Utf8.decode (Utf8.encode point ++ rest) = (some point, rest) :=
    Utf8.decode_eq_some_iff.mpr ⟨scalar, rfl⟩
  have unread_ne_nil : Utf8.encode point ++ rest ≠ [] := by
    intro unread_eq_nil
    rw [unread_eq_nil] at decoded
    cases decoded
  rw [points]
  simp only [unread_ne_nil, if_false, readPoint, decoded]

/-- What was written as the sequences of scalar values is read back as these values. -/
theorem points_flatMap_encode {points : List Nat} (scalar : ∀ point ∈ points, Utf8.IsScalar point)
    (output : Bytes) :
    (Console.mk (points.flatMap Utf8.encode) output).points = points.map some := by
  induction points with
  | nil => exact points_nil output
  | cons point rest ih =>
      rw [List.flatMap_cons, points_encode_append (scalar point List.mem_cons_self), List.map_cons]
      rw [ih]
      intro other otherMem
      exact scalar other (List.mem_cons_of_mem _ otherMem)

end Console

namespace Utf8

theorem encode_toNat {byte : UInt8} (ascii : byte.toNat < 0x80) : encode byte.toNat = [byte] := by
  rw [encode, if_pos ascii, UInt8.ofNat_toNat]

/-- Each byte below 128 is a sequence of its own. -/
theorem flatMap_encode_of_ascii {text : Bytes} (ascii : ∀ byte ∈ text, byte.toNat < 0x80) :
    (text.map UInt8.toNat).flatMap encode = text := by
  induction text with
  | nil => rfl
  | cons byte rest ih =>
      rw [List.map_cons, List.flatMap_cons, encode_toNat (ascii byte List.mem_cons_self), ih]
      · rfl
      · intro other otherMem
        exact ascii other (List.mem_cons_of_mem _ otherMem)

end Utf8

end SpanMachine
