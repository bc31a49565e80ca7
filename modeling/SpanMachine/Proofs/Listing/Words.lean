import SpanMachine.Proofs.Listing.Grammar

/-!
# Lines and tokens as rows of words

The scanner of lines and tokens finds the same words as splitting a text at its line
feeds and each line at its whitespace. The scanner works from the end of the text: it
attaches a byte to the token in the next column. This is right because a token begins
in the next column exactly if the segment between two separators that begins there is
not empty.
-/

namespace SpanMachine

namespace Token

theorem attach_apart (byte : UInt8) {column : Nat} {later : List Token}
    (apart : ∀ token ∈ later, column + 1 < token.column) :
    attach byte column later = ⟨[byte], column⟩ :: later := by
  cases later with
  | nil => rfl
  | cons next later =>
      have beyond := apart next List.mem_cons_self
      simp only [attach]
      rw [if_neg (by omega)]

theorem attach_adjacent (byte : UInt8) {column : Nat} {next : Token}
    (adjacent : next.column = column + 1) (later : List Token) :
    attach byte column (next :: later) = ⟨byte :: next.text, column⟩ :: later := by
  simp only [attach, adjacent, if_true]

end Token

namespace Listing

theorem column_le_of_mem_tokensFrom {column : Nat} {text : Bytes} {token : Token}
    (token_mem : token ∈ tokensFrom column text) : column ≤ token.column := by
  induction text generalizing column with
  | nil => simp [tokensFrom] at token_mem
  | cons byte rest ih =>
      simp only [tokensFrom] at token_mem
      split at token_mem
      · simp at token_mem
      · split at token_mem
        · have := ih token_mem
          omega
        · generalize later_eq : tokensFrom (column + 1) rest = later at token_mem
          cases later with
          | nil =>
              simp only [Token.attach, List.mem_singleton] at token_mem
              simp [token_mem]
          | cons next later =>
              simp only [Token.attach] at token_mem
              split at token_mem
              · rcases List.mem_cons.mp token_mem with rfl | later_mem
                · exact Nat.le_refl _
                · have := ih (later_eq ▸ List.mem_cons_of_mem _ later_mem)
                  omega
              · rcases List.mem_cons.mp token_mem with rfl | later_mem
                · exact Nat.le_refl _
                · have := ih (later_eq ▸ later_mem)
                  omega

/-- The parts of a line between the separators before its first semicolon. -/
def segments (line : Bytes) : List Bytes :=
  (line.takeWhile (· != Byte.semicolon)).splitOnP Byte.isSpace

theorem segments_semicolon (rest : Bytes) : segments (Byte.semicolon :: rest) = [[]] := by
  simp [segments]

theorem segments_space {byte : UInt8} (not_semicolon : byte ≠ Byte.semicolon)
    (is_space : Byte.isSpace byte = true) (rest : Bytes) :
    segments (byte :: rest) = [] :: segments rest := by
  have passes : (byte != Byte.semicolon) = true := bne_iff_ne.mpr not_semicolon
  simp only [segments, List.takeWhile_cons, passes, if_true,
    List.splitOnP_cons_eq_if_modifyHead, is_space]

theorem segments_word {byte : UInt8} (not_semicolon : byte ≠ Byte.semicolon)
    (not_space : ¬Byte.isSpace byte = true) (rest : Bytes) :
    segments (byte :: rest) = (segments rest).modifyHead (List.cons byte) := by
  have passes : (byte != Byte.semicolon) = true := bne_iff_ne.mpr not_semicolon
  simp only [segments, List.takeWhile_cons, passes, if_true,
    List.splitOnP_cons_eq_if_modifyHead, not_space]
  rfl

/-- The tokens from a column on, seen against the segment that begins in that column. -/
theorem tokensFrom_segments (column : Nat) (text : Bytes) :
    ∃ head tail, segments text = head :: tail ∧
      (tokensFrom column text).map Token.text = (head :: tail).filter (!·.isEmpty) ∧
      (head = [] → ∀ token ∈ tokensFrom column text, column < token.column) ∧
      (head ≠ [] → ∃ token later, tokensFrom column text = token :: later ∧
        token.column = column) := by
  induction text generalizing column with
  | nil => exact ⟨[], [], rfl, rfl, by simp [tokensFrom], by simp⟩
  | cons byte rest ih =>
      rcases ih (column + 1) with ⟨head, tail, rest_segments, texts, apart, adjacent⟩
      simp only [tokensFrom]
      split
      · rename_i is_semicolon
        subst is_semicolon
        exact ⟨[], [], segments_semicolon rest, rfl, by simp, by simp⟩
      · rename_i not_semicolon
        split
        · rename_i is_space
          refine ⟨[], head :: tail, ?_, texts, ?_, by simp⟩
          · rw [segments_space not_semicolon is_space, rest_segments]
          · intro _ token token_mem
            exact column_le_of_mem_tokensFrom token_mem
        · rename_i not_space
          have here_segments : segments (byte :: rest) = (byte :: head) :: tail := by
            rw [segments_word not_semicolon not_space, rest_segments]
            rfl
          by_cases head_nil : head = []
          · subst head_nil
            rw [Token.attach_apart byte (apart rfl)]
            refine ⟨[byte], tail, here_segments, ?_, by simp, fun _ => ⟨_, _, rfl, rfl⟩⟩
            simp only [List.map_cons, texts]
            rfl
          · rcases adjacent head_nil with ⟨next, later, rest_tokens, next_column⟩
            rw [rest_tokens, Token.attach_adjacent byte next_column]
            refine ⟨byte :: head, tail, here_segments, ?_, by simp, fun _ => ⟨_, _, rfl, rfl⟩⟩
            have head_kept : (!head.isEmpty) = true := by simpa using head_nil
            rw [rest_tokens, List.map_cons, List.filter_cons, if_pos head_kept] at texts
            rcases List.cons.inj texts with ⟨next_text, later_texts⟩
            simp only [List.map_cons, next_text, later_texts]
            rfl

theorem map_text_tokensFrom (column : Nat) (line : Bytes) :
    (tokensFrom column line).map Token.text = words line := by
  rcases tokensFrom_segments column line with ⟨head, tail, line_segments, texts, -, -⟩
  rw [texts, ← line_segments]
  rfl

theorem map_text_tokens (line : Bytes) : (tokens line).map Token.text = words line :=
  map_text_tokensFrom 0 line

theorem prependByte_lineFeed (lines : List Bytes) :
    prependByte Byte.lineFeed lines = [] :: lines := by
  simp [prependByte]

theorem prependByte_nil {byte : UInt8} (not_feed : byte ≠ Byte.lineFeed) :
    prependByte byte [] = [[byte]] := by
  simp [prependByte, not_feed]

theorem prependByte_cons {byte : UInt8} (not_feed : byte ≠ Byte.lineFeed) (line : Bytes)
    (lines : List Bytes) : prependByte byte (line :: lines) = (byte :: line) :: lines := by
  simp [prependByte, not_feed]

theorem foldr_prependByte_ne_nil {text : Bytes} (nonempty : text ≠ []) :
    text.foldr prependByte [] ≠ [] := by
  cases text with
  | nil => exact absurd rfl nonempty
  | cons byte rest =>
      simp only [List.foldr_cons, prependByte]
      split
      · exact List.cons_ne_nil _ _
      · split <;> exact List.cons_ne_nil _ _

/-- Splitting at line feeds finds one line more, an empty one, behind a final line feed. -/
theorem splitOn_lineFeed_eq (text : Bytes) :
    text.splitOn Byte.lineFeed = text.foldr prependByte [] ++
      if text = [] ∨ text.getLast? = some Byte.lineFeed then [[]] else [] := by
  induction text with
  | nil => rfl
  | cons byte rest ih =>
      rw [List.splitOn_cons_eq_if_modifyHead, List.foldr_cons, ih]
      cases rest with
      | nil =>
          by_cases is_feed : byte = Byte.lineFeed
          · simp [is_feed, prependByte_lineFeed]
          · simp [is_feed, prependByte_nil is_feed]
      | cons next rest =>
          rcases List.exists_cons_of_ne_nil (foldr_prependByte_ne_nil (List.cons_ne_nil next rest))
            with ⟨line, lines, lines_eq⟩
          rw [lines_eq]
          by_cases is_feed : byte = Byte.lineFeed
          · simp [is_feed, prependByte_lineFeed]
          · simp [is_feed, prependByte_cons is_feed]

theorem splitOn_lineFeed (text : Bytes) :
    text.splitOn Byte.lineFeed = text.foldr prependByte [] ∨
      text.splitOn Byte.lineFeed = text.foldr prependByte [] ++ [[]] := by
  rw [splitOn_lineFeed_eq]
  split
  · exact Or.inr rfl
  · exact Or.inl (List.append_nil _)

theorem splitOn_flatMap_lineFeed {lines : List Bytes}
    (no_feed : ∀ line ∈ lines, Byte.lineFeed ∉ line) :
    (lines.flatMap (· ++ [Byte.lineFeed])).splitOn Byte.lineFeed = lines ++ [[]] := by
  induction lines with
  | nil => rfl
  | cons line rest ih =>
      rw [List.forall_mem_cons] at no_feed
      rw [List.flatMap_cons, List.append_assoc, List.singleton_append,
        List.splitOn_append_cons_self_of_not_mem no_feed.1, ih no_feed.2]
      rfl

/-- The rows that the scanner finds are those of the text, up to an empty last one. -/
theorem rows_eq_or_append_blank (text : Bytes) :
    rows text = (lines text).map words ∨ rows text = (lines text).map words ++ [[]] := by
  simp only [lines, List.map_map]
  rcases splitOn_lineFeed text with same | blank
  · left
    rw [rows, same]
    rfl
  · right
    rw [rows, blank, List.map_append]
    rfl

end Listing

end SpanMachine
