import SpanMachine.Proofs.Listing.Words

/-!
# Where the words of a line stand

A token holds a word and the column where it begins. The scanner adds bytes to the front of
tokens, so the columns are right for the same reason as the words: cutting a line at a token
cuts its list of tokens at the same place. The tokens before it are the tokens of the bytes
before it, and the tokens after it those of the bytes after it.

Two columns mark a part of a line. For a token they are those of its first and its last byte,
and the bytes in between are its word. For several tokens they run from the first byte of the
first one to the last byte of the last one.
-/

namespace SpanMachine

namespace Token

theorem attach_alone {byte : UInt8} {column : Nat} {tokens : List Token}
    (apart : ∀ next ∈ tokens.head?, next.column ≠ column + 1) :
    attach byte column tokens = ⟨[byte], column⟩ :: tokens := by
  cases tokens with
  | nil => rfl
  | cons next later => simp only [attach, apart next rfl, if_false]

theorem attach_cases (byte : UInt8) (column : Nat) (tokens : List Token) :
    (∃ next later, tokens = next :: later ∧ next.column = column + 1 ∧
        attach byte column tokens = ⟨byte :: next.text, column⟩ :: later) ∨
      ((∀ next ∈ tokens.head?, next.column ≠ column + 1) ∧
        attach byte column tokens = ⟨[byte], column⟩ :: tokens) := by
  cases tokens with
  | nil => exact Or.inr ⟨nofun, rfl⟩
  | cons next later =>
      by_cases adjacent : next.column = column + 1
      · exact Or.inl ⟨next, later, rfl, adjacent, attach_adjacent byte adjacent later⟩
      · have apart : ∀ other ∈ (next :: later).head?, other.column ≠ column + 1 := by
          simpa using adjacent
        exact Or.inr ⟨apart, attach_alone apart⟩

end Token

namespace Listing

/-- A text whose tokens are cut at one of them where the text is cut around its word. -/
structure Cuts (column : Nat) (text : Bytes) (earlier : List Token) (token : Token)
    (later : List Token) (before after : Bytes) : Prop where
  joined : before ++ token.text ++ after = text
  column_eq : token.column = column + before.length
  tokens_before : tokensFrom column before = earlier
  tokens_after : tokensFrom (token.column + token.text.length) after = later

/-- A byte that leaves the token alone goes to the bytes before it. -/
theorem Cuts.cons {column : Nat} {rest before after : Bytes} {token : Token}
    {earlier others later : List Token}
    (cuts : Cuts (column + 1) rest earlier token later before after) {byte : UInt8}
    (scanned : tokensFrom column (byte :: before) = others) :
    Cuts column (byte :: rest) others token later (byte :: before) after := by
  refine ⟨congrArg (List.cons byte) cuts.joined, ?_, scanned, cuts.tokens_after⟩
  rw [cuts.column_eq, List.length_cons]
  omega

/-- A byte right before the first token becomes a part of it. -/
theorem Cuts.extend {column : Nat} {rest before after : Bytes} {token : Token}
    {later : List Token} (cuts : Cuts (column + 1) rest [] token later before after)
    (adjacent : token.column = column + 1) (byte : UInt8) :
    Cuts column (byte :: rest) [] ⟨byte :: token.text, column⟩ later [] after := by
  have before_nil : before = [] := by
    have column_eq := cuts.column_eq
    apply List.eq_nil_of_length_eq_zero
    omega
  subst before_nil
  refine ⟨congrArg (List.cons byte) cuts.joined, rfl, rfl, ?_⟩
  have same_end : column + (byte :: token.text).length = token.column + token.text.length := by
    rw [adjacent, List.length_cons]
    omega
  exact same_end ▸ cuts.tokens_after

theorem exists_cuts {column : Nat} {text : Bytes} {earlier later : List Token} {token : Token}
    (found : tokensFrom column text = earlier ++ token :: later) :
    ∃ before after, Cuts column text earlier token later before after := by
  induction text generalizing column earlier token with
  | nil => simp [tokensFrom] at found
  | cons byte rest ih =>
      simp only [tokensFrom] at found
      split at found
      · simp at found
      · rename_i not_semicolon
        split at found
        · rename_i is_space
          rcases ih found with ⟨before, after, cuts⟩
          refine ⟨byte :: before, after, cuts.cons ?_⟩
          simp only [tokensFrom, not_semicolon, is_space, if_false, if_true, cuts.tokens_before]
        · rename_i not_space
          have scanned (before : Bytes) : tokensFrom column (byte :: before) =
              Token.attach byte column (tokensFrom (column + 1) before) := by
            simp only [tokensFrom, not_semicolon, not_space, if_false]
            rfl
          -- The byte begins the first token, either in front of the next one or alone.
          rcases Token.attach_cases byte column (tokensFrom (column + 1) rest) with
            ⟨next, others, rest_tokens, adjacent, attached⟩ | ⟨apart, attached⟩
          · rw [attached] at found
            cases earlier with
            | nil =>
                cases found
                rw [← List.nil_append (next :: later)] at rest_tokens
                rcases ih rest_tokens with ⟨before, after, cuts⟩
                exact ⟨[], after, cuts.extend adjacent byte⟩
            | cons head earlier =>
                rw [List.cons_append] at found
                rcases List.cons.inj found with ⟨rfl, rfl⟩
                rw [← List.cons_append] at rest_tokens
                rcases ih rest_tokens with ⟨before, after, cuts⟩
                refine ⟨byte :: before, after, cuts.cons ?_⟩
                rw [scanned, cuts.tokens_before, Token.attach_adjacent byte adjacent]
          · rw [attached] at found
            cases earlier with
            | nil =>
                cases found
                exact ⟨[], rest, rfl, rfl, rfl, rfl⟩
            | cons head earlier =>
                rcases List.cons.inj found with ⟨rfl, rest_tokens⟩
                rcases ih rest_tokens with ⟨before, after, cuts⟩
                refine ⟨byte :: before, after, cuts.cons ?_⟩
                rw [scanned, cuts.tokens_before]
                apply Token.attach_alone
                intro next next_mem
                apply apart
                rw [rest_tokens]
                exact List.mem_head?_append_of_mem_head? next_mem

theorem exists_cuts_of_getElem? {line : Bytes} {index : Nat} {token : Token}
    (token_at : (tokens line)[index]? = some token) :
    ∃ before after, Cuts 0 line ((tokens line).take index) token ((tokens line).drop (index + 1))
      before after := by
  rcases List.getElem?_eq_some_iff.mp token_at with ⟨bound, rfl⟩
  apply exists_cuts
  rw [← List.drop_eq_getElem_cons bound, List.take_append_drop]
  rfl

/-- The bytes of a line from one column to another, both included. -/
def excerpt (line : Bytes) (first last : Nat) : Bytes :=
  (line.take (last + 1)).drop first

/--
The columns of a line from the first byte of one of its words to the last byte of another, the
words counted from zero.
-/
structure Marks (line : Bytes) (start stop first last : Nat) : Prop where
  ordered : first ≤ last
  inside : last < line.length
  words_before : words (line.take first) = (words line).take start
  words_after : words (line.drop (last + 1)) = (words line).drop (stop + 1)
  begins : ∃ word, (words line)[start]? = some word ∧ word <+: excerpt line first last
  ends : ∃ word, (words line)[stop]? = some word ∧ word <:+ excerpt line first last
  single : start = stop → (words line)[start]? = some (excerpt line first last)

theorem ne_nil_of_mem_words {line word : Bytes} (word_mem : word ∈ words line) : word ≠ [] := by
  have kept := (List.mem_filter.mp word_mem).2
  simpa using kept

theorem words_getElem? {line : Bytes} {index : Nat} {token : Token}
    (token_at : (tokens line)[index]? = some token) : (words line)[index]? = some token.text := by
  rw [← map_text_tokens, List.getElem?_map, token_at]
  rfl

theorem lastColumn_add_one {line : Bytes} {index : Nat} {token : Token}
    (token_at : (tokens line)[index]? = some token) :
    token.lastColumn + 1 = token.column + token.text.length := by
  have nonempty := ne_nil_of_mem_words (List.mem_of_getElem? (words_getElem? token_at))
  have length_pos := List.length_pos_iff.mpr nonempty
  rw [Token.lastColumn]
  omega

/-- A token marks its own word. -/
theorem marks_token {line : Bytes} {index : Nat} {token : Token}
    (token_at : (tokens line)[index]? = some token) :
    Marks line index index token.column token.lastColumn := by
  rcases exists_cuts_of_getElem? token_at with ⟨before, after, cuts⟩
  have word_at := words_getElem? token_at
  have last_eq := lastColumn_add_one token_at
  have column_eq : token.column = before.length := by
    rw [cuts.column_eq, Nat.zero_add]
  have end_eq : token.lastColumn + 1 = (before ++ token.text).length := by
    rw [last_eq, column_eq, List.length_append]
  have line_take : line.take token.column = before := by
    rw [← cuts.joined, List.append_assoc]
    exact List.take_left' column_eq.symm
  have line_drop : line.drop (token.lastColumn + 1) = after := by
    rw [← cuts.joined]
    exact List.drop_left' end_eq.symm
  have excerpt_eq : excerpt line token.column token.lastColumn = token.text := by
    rw [excerpt, ← cuts.joined, List.take_left' end_eq.symm]
    exact List.drop_left' column_eq.symm
  have within : (before ++ token.text).length ≤ line.length := by
    rw [← cuts.joined]
    exact (List.prefix_append _ _).length_le
  have word_pos := List.length_pos_iff.mpr (ne_nil_of_mem_words (List.mem_of_getElem? word_at))
  constructor
  · omega
  · omega
  · rw [line_take, ← map_text_tokensFrom 0 before, cuts.tokens_before, List.map_take,
      map_text_tokens]
  · rw [line_drop, ← map_text_tokensFrom (token.column + token.text.length) after,
      cuts.tokens_after, List.map_drop, map_text_tokens]
  · exact ⟨token.text, word_at, excerpt_eq ▸ List.prefix_refl _⟩
  · exact ⟨token.text, word_at, excerpt_eq ▸ List.suffix_refl _⟩
  · intro _
    rw [excerpt_eq]
    exact word_at

theorem lastColumn_lt_column {line : Bytes} {start stop : Nat} {first last : Token}
    (first_at : (tokens line)[start]? = some first) (last_at : (tokens line)[stop]? = some last)
    (earlier : start < stop) : first.lastColumn < last.column := by
  rcases exists_cuts_of_getElem? last_at with ⟨before, after, cuts⟩
  have first_before : (tokens before)[start]? = some first := by
    rw [tokens, cuts.tokens_before, List.getElem?_take, if_pos earlier]
    exact first_at
  have inside := (marks_token first_before).inside
  rw [cuts.column_eq, Nat.zero_add]
  exact inside

/-- Two tokens, one not before the other, mark the part of the line between them. -/
theorem marks_tokens {line : Bytes} {start stop : Nat} {first last : Token}
    (first_at : (tokens line)[start]? = some first) (last_at : (tokens line)[stop]? = some last)
    (ordered : start ≤ stop) : Marks line start stop first.column last.lastColumn := by
  rcases Nat.eq_or_lt_of_le ordered with rfl | earlier
  · rw [first_at, Option.some.injEq] at last_at
    subst last_at
    exact marks_token first_at
  · have apart := lastColumn_lt_column first_at last_at earlier
    have first_marks := marks_token first_at
    have last_marks := marks_token last_at
    have first_ordered := first_marks.ordered
    have last_ordered := last_marks.ordered
    rcases first_marks.begins with ⟨first_word, first_word_at, first_prefix⟩
    rcases last_marks.ends with ⟨last_word, last_word_at, last_suffix⟩
    constructor
    · omega
    · exact last_marks.inside
    · exact first_marks.words_before
    · exact last_marks.words_after
    · refine ⟨first_word, first_word_at, first_prefix.trans ?_⟩
      rw [excerpt, excerpt, List.drop_take, List.drop_take]
      exact List.take_prefix_take_left (by omega)
    · refine ⟨last_word, last_word_at, last_suffix.trans ?_⟩
      exact List.drop_suffix_drop_left _ (by omega)
    · intro same
      omega

end Listing

end SpanMachine
