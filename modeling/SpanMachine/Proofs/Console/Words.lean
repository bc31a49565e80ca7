import Mathlib.Data.List.Induction
import SpanMachine.Proofs.Bytes.Decimal
import SpanMachine.Proofs.Console

/-!
# Reading a console word by word

A text is whitespace alone, or it is whitespace, a word and a rest that does not continue the
word. Reading a word tells these two apart, and in the second case it returns the word and leaves
the rest. Splitting the text at its whitespace finds the same word first and then the words of
the rest. So reading over and over returns the words of the text in order and nothing after them.
The words are the runs of bytes other than whitespace with whitespace or nothing on both sides.

Both ways of reading take bytes off the front only, and at least one where there is one. As many
reads as there are bytes, of whatever kind each of them is, leave nothing.
-/

namespace SpanMachine

namespace Byte

/-- The space, the horizontal tab, the line feed, the vertical tab, the form feed and the return. -/
def whitespace : List UInt8 :=
  [0x20, 0x09, 0x0A, 0x0B, 0x0C, 0x0D]

theorem isSpace_iff_mem {byte : UInt8} : isSpace byte = true ↔ byte ∈ whitespace := by
  rw [isSpace_iff]
  simp only [whitespace, List.mem_cons, List.not_mem_nil, or_false, ← UInt8.toNat_inj,
    UInt8.reduceToNat]
  omega

end Byte

namespace Bytes

/-- The maximal runs of bytes other than whitespace. -/
def words (text : Bytes) : List Bytes :=
  (text.splitOnP fun byte => byte ∈ Byte.whitespace).filter (!·.isEmpty)

example : words (ascii "  12\t-3/4\n\n0.5 ") = [ascii "12", ascii "-3/4", ascii "0.5"] := by
  decide +kernel

theorem words_eq (text : Bytes) :
    words text = (text.splitOnP Byte.isSpace).filter (!·.isEmpty) := by
  have same_test : Byte.isSpace = fun byte => decide (byte ∈ Byte.whitespace) := by
    funext byte
    rw [Bool.eq_iff_iff, Byte.isSpace_iff_mem, decide_eq_true_eq]
  rw [words, same_test]

theorem words_blank_append {gap : Bytes} (blank : ∀ byte ∈ gap, Byte.isSpace byte = true)
    (rest : Bytes) : words (gap ++ rest) = words rest := by
  induction gap with
  | nil => rfl
  | cons byte gap ih =>
      rw [List.forall_mem_cons] at blank
      rw [← ih blank.2]
      simp [words_eq, List.splitOnP_cons_eq_if_modifyHead, blank.1]

theorem words_blank {gap : Bytes} (blank : ∀ byte ∈ gap, Byte.isSpace byte = true) :
    words gap = [] := by
  have behind_nothing := words_blank_append blank []
  rwa [List.append_nil] at behind_nothing

theorem words_word_append {word rest : Bytes} (word_ne_nil : word ≠ [])
    (no_space : ∀ byte ∈ word, Byte.isSpace byte = false)
    (ends : ∀ byte ∈ rest.head?, Byte.isSpace byte = true) :
    words (word ++ rest) = word :: words rest := by
  cases rest with
  | nil => simp [words_eq, List.splitOnP_eq_singleton no_space, word_ne_nil]
  | cons separator rest =>
      have is_space : Byte.isSpace separator = true := ends separator rfl
      rw [words_eq, List.splitOnP_append_cons_of_forall_mem no_space separator is_space]
      simp [words_eq, List.splitOnP_cons_eq_if_modifyHead, is_space, word_ne_nil]

theorem words_append_space {byte : UInt8} (is_space : Byte.isSpace byte = true)
    (first second : Bytes) : words (first ++ byte :: second) = words first ++ words second := by
  simp only [words_eq, List.splitOnP_append_cons first second is_space, List.filter_append]

/-- The first byte that is not skipped is one at which skipping stops. -/
theorem head?_dropWhile (accepts : UInt8 → Bool) (text : Bytes) :
    ∀ byte ∈ (text.dropWhile accepts).head?, accepts byte = false := by
  intro byte byte_mem
  have stopped := List.head?_dropWhile_not accepts text
  rw [Option.mem_def.mp byte_mem] at stopped
  exact stopped

/-- A text is whitespace alone, or there is a first word in it. -/
theorem exists_word {text : Bytes} (not_blank : ¬∀ byte ∈ text, Byte.isSpace byte = true) :
    ∃ gap word rest, text = gap ++ word ++ rest ∧
      (∀ byte ∈ gap, Byte.isSpace byte = true) ∧ word ≠ [] ∧
      (∀ byte ∈ word, Byte.isSpace byte = false) ∧
      ∀ byte ∈ rest.head?, Byte.isSpace byte = true := by
  have behind_gap_ne_nil : text.dropWhile Byte.isSpace ≠ [] :=
    mt List.dropWhile_eq_nil_iff.mp not_blank
  have starts := head?_dropWhile Byte.isSpace text
  have gap_append := List.takeWhile_append_dropWhile (p := Byte.isSpace) (l := text)
  generalize text.dropWhile Byte.isSpace = behind_gap at *
  refine ⟨text.takeWhile Byte.isSpace, behind_gap.takeWhile (!Byte.isSpace ·),
    behind_gap.dropWhile (!Byte.isSpace ·), ?_, ?_, ?_, ?_, ?_⟩
  · rw [List.append_assoc, List.takeWhile_append_dropWhile, gap_append]
  · intro byte byte_mem
    exact List.mem_takeWhile_imp byte_mem
  · rcases List.exists_cons_of_ne_nil behind_gap_ne_nil with ⟨first, others, rfl⟩
    simp [starts first rfl]
  · intro byte byte_mem
    simpa using List.mem_takeWhile_imp byte_mem
  · intro byte byte_mem
    simpa using head?_dropWhile (!Byte.isSpace ·) behind_gap byte byte_mem

/-- A run of bytes other than whitespace that no byte before or behind it continues. -/
structure IsRun (text before run behind : Bytes) : Prop where
  parts : text = before ++ run ++ behind
  run_ne_nil : run ≠ []
  no_space : ∀ byte ∈ run, byte ∉ Byte.whitespace
  starts : ∀ byte ∈ before.getLast?, byte ∈ Byte.whitespace
  ends : ∀ byte ∈ behind.head?, byte ∈ Byte.whitespace

theorem IsRun.mem_words {text before run behind : Bytes} (is_run : IsRun text before run behind) :
    run ∈ words text := by
  rcases is_run with ⟨rfl, run_ne_nil, no_space, starts, ends⟩
  simp only [← Byte.isSpace_iff_mem, Bool.not_eq_true] at no_space starts ends
  have run_first := words_word_append run_ne_nil no_space ends
  rw [List.append_assoc]
  rcases List.eq_nil_or_concat before with rfl | ⟨front, last, rfl⟩
  · rw [List.nil_append, run_first]
    exact List.mem_cons_self
  · have is_space : Byte.isSpace last = true := starts last (by simp)
    rw [List.concat_eq_append, List.append_assoc, List.singleton_append,
      words_append_space is_space, run_first]
    exact List.mem_append_right _ List.mem_cons_self

theorem exists_isRun {text run : Bytes} (run_mem : run ∈ words text) :
    ∃ before behind, IsRun text before run behind := by
  by_cases blank : ∀ byte ∈ text, Byte.isSpace byte = true
  · rw [words_blank blank] at run_mem
    cases run_mem
  · rcases exists_word blank with ⟨gap, word, rest, text_eq, gap_blank, word_ne_nil, no_space, ends⟩
    have shorter : rest.length < text.length := by
      have something := List.length_pos_iff.mpr word_ne_nil
      simp only [text_eq, List.length_append]
      omega
    subst text_eq
    rw [List.append_assoc, words_blank_append gap_blank,
      words_word_append word_ne_nil no_space ends] at run_mem
    simp only [← Bool.not_eq_true, Byte.isSpace_iff_mem] at gap_blank no_space ends
    rcases List.mem_cons.mp run_mem with rfl | later
    · refine ⟨gap, rest, rfl, word_ne_nil, no_space, ?_, ends⟩
      intro byte byte_mem
      exact gap_blank byte (List.mem_of_getLast? byte_mem)
    · rcases exists_isRun later with ⟨before, behind, rest_eq, run_ne_nil, inside, starts, run_ends⟩
      -- The rest begins with whitespace, so something stands before a run in it.
      have before_ne_nil : before ≠ [] := by
        rintro rfl
        rcases List.exists_cons_of_ne_nil run_ne_nil with ⟨first, others, rfl⟩
        subst rest_eq
        exact inside first List.mem_cons_self (ends first rfl)
      refine ⟨gap ++ word ++ before, behind, ?_, run_ne_nil, inside, ?_, run_ends⟩
      · simp only [rest_eq, List.append_assoc]
      · intro byte byte_mem
        rw [List.getLast?_append, List.getLast?_eq_some_getLast before_ne_nil] at byte_mem
        exact starts byte (List.getLast?_eq_some_getLast before_ne_nil ▸ byte_mem)
termination_by text.length

end Bytes

namespace Console

/-- What a text looks like to a reader of words, and what reading a word does with it. -/
theorem readWord_cases (console : Console) :
    ((∀ byte ∈ console.unread, Byte.isSpace byte = true) ∧
        console.readWord = (none, ⟨[], console.output⟩)) ∨
      ∃ gap word rest, console.unread = gap ++ word ++ rest ∧
        (∀ byte ∈ gap, Byte.isSpace byte = true) ∧ word ≠ [] ∧
        (∀ byte ∈ word, Byte.isSpace byte = false) ∧
        (∀ byte ∈ rest.head?, Byte.isSpace byte = true) ∧
        console.readWord = (some word, ⟨rest, console.output⟩) := by
  rcases console with ⟨text, output⟩
  by_cases blank : ∀ byte ∈ text, Byte.isSpace byte = true
  · exact Or.inl ⟨blank, readWord_blank blank output⟩
  · rcases Bytes.exists_word blank with
      ⟨gap, word, rest, rfl, gap_blank, word_ne_nil, no_space, ends⟩
    exact Or.inr ⟨gap, word, rest, rfl, gap_blank, word_ne_nil, no_space, ends,
      readWord_of_blank gap_blank word_ne_nil no_space ends output⟩

/-- Reading a word takes the first one off the words of the text. -/
theorem words_unread (console : Console) :
    Bytes.words console.unread =
      console.readWord.1.toList ++ Bytes.words console.readWord.2.unread := by
  rcases console.readWord_cases with
    ⟨blank, read⟩ | ⟨gap, word, rest, unread_eq, blank, word_ne_nil, no_space, ends, read⟩
  · rw [read, Bytes.words_blank blank]
    rfl
  · rw [read, unread_eq, List.append_assoc, Bytes.words_blank_append blank,
      Bytes.words_word_append word_ne_nil no_space ends]
    rfl

theorem head?_unread_readWord {console : Console} {word : Bytes}
    (read : console.readWord.1 = some word) :
    ∀ byte ∈ console.readWord.2.unread.head?, Byte.isSpace byte = true := by
  rcases console.readWord_cases with ⟨-, none_read⟩ | ⟨_, _, _, -, -, -, -, ends, some_read⟩
  · rw [none_read] at read
    cases read
  · rw [some_read]
    exact ends

theorem length_unread_readWord_lt {console : Console} (unread_ne_nil : console.unread ≠ []) :
    console.readWord.2.unread.length < console.unread.length := by
  rcases console.readWord_cases with
    ⟨-, read⟩ | ⟨gap, word, rest, unread_eq, -, word_ne_nil, -, -, read⟩
  · rw [read]
    exact List.length_pos_iff.mpr unread_ne_nil
  · have something := List.length_pos_iff.mpr word_ne_nil
    rw [read, unread_eq, List.length_append, List.length_append]
    dsimp only
    omega

/-- The two ways of reading. -/
inductive Read where
  | word
  | point

/-- Whether a read returns something. -/
def Read.succeeds (console : Console) : Read → Bool
  | word => console.readWord.1.isSome
  | point => console.readPoint.1.isSome

/-- The console after some reads. -/
def after (console : Console) : List Read → Console
  | [] => console
  | .word :: later => console.readWord.2.after later
  | .point :: later => console.readPoint.2.after later

theorem after_append (console : Console) (first second : List Read) :
    console.after (first ++ second) = (console.after first).after second := by
  induction first generalizing console with
  | nil => rfl
  | cons read later ih =>
      cases read with
      | word => exact ih console.readWord.2
      | point => exact ih console.readPoint.2

/-! ## One read -/

theorem unread_after_suffix (console : Console) (read : Read) :
    (console.after [read]).unread <:+ console.unread := by
  cases read with
  | word => exact console.unread_readWord_suffix
  | point => exact console.unread_readPoint_suffix

theorem length_unread_after_lt {console : Console} (unread_ne_nil : console.unread ≠ [])
    (read : Read) : (console.after [read]).unread.length < console.unread.length := by
  cases read with
  | word => exact length_unread_readWord_lt unread_ne_nil
  | point => exact length_unread_readPoint_lt unread_ne_nil

theorem unread_ne_nil_of_succeeds {console : Console} {read : Read}
    (succeeds : read.succeeds console = true) : console.unread ≠ [] := by
  intro unread_eq_nil
  rcases console with ⟨text, output⟩
  cases unread_eq_nil
  cases read with
  | word => cases succeeds
  | point => cases succeeds

/-! ## Any number of reads -/

theorem readWord_after (console : Console) (count : Nat) :
    (console.after (List.replicate count .word)).readWord.1 =
      (Bytes.words console.unread)[count]? := by
  induction count generalizing console with
  | zero =>
      rw [words_unread]
      rcases console.readWord_cases with ⟨-, read⟩ | ⟨_, word, rest, -, -, -, -, -, read⟩
      · simp only [List.replicate_zero, after, read]
        rfl
      · simp only [List.replicate_zero, after, read]
        rfl
  | succ count ih =>
      rw [words_unread, List.replicate_succ, after, ih]
      rcases console.readWord_cases with ⟨-, read⟩ | ⟨_, word, rest, -, -, -, -, -, read⟩
      · simp [read, Bytes.words_eq]
      · simp [read]

/-- Each read brings the input nearer to its end. -/
theorem length_unread_after_le (console : Console) (reads : List Read) :
    (console.after reads).unread.length ≤ console.unread.length - reads.length := by
  induction reads using List.reverseRecOn with
  | nil => exact Nat.le_refl _
  | append_singleton reads read ih =>
      rw [after_append, List.length_append, List.length_singleton]
      by_cases exhausted : (console.after reads).unread = []
      · have shorter := ((console.after reads).unread_after_suffix read).length_le
        rw [exhausted, List.length_nil] at shorter
        omega
      · have shorter := length_unread_after_lt exhausted read
        omega

/--
Reading words over and over returns the words of the input in order, each as it is written, and
nothing after the last one. These are the runs of bytes other than whitespace that cannot be
extended. Behind a word the input is at its end or at whitespace. However words and code points
are read in turn, what is unread afterwards is an end of what was unread before, and a shorter one
if the read returned something or if a code point was asked of an input that was not at its end.
After as many reads as there were bytes nothing is left.
-/
theorem words_read_in_order (console : Console) :
    (∀ count, (console.after (List.replicate count .word)).readWord.1 =
      (Bytes.words console.unread)[count]?) ∧
    (∀ run, run ∈ Bytes.words console.unread ↔
      ∃ before behind, Bytes.IsRun console.unread before run behind) ∧
    (∀ reads word, (console.after reads).readWord.1 = some word →
      ∀ byte ∈ (console.after reads).readWord.2.unread.head?, byte ∈ Byte.whitespace) ∧
    (∀ reads read,
      (console.after (reads ++ [read])).unread <:+ (console.after reads).unread ∧
        (read.succeeds (console.after reads) = true ∨
            read = .point ∧ (console.after reads).unread ≠ [] →
          (console.after (reads ++ [read])).unread.length <
            (console.after reads).unread.length)) ∧
    ∀ reads : List Read, console.unread.length ≤ reads.length →
      (console.after reads).unread = [] := by
  refine ⟨console.readWord_after, ?_, ?_, ?_, ?_⟩
  · intro run
    constructor
    · exact Bytes.exists_isRun
    · rintro ⟨before, behind, is_run⟩
      exact is_run.mem_words
  · intro reads word read byte byte_mem
    exact Byte.isSpace_iff_mem.mp (head?_unread_readWord read byte byte_mem)
  · intro reads read
    rw [after_append]
    refine ⟨(console.after reads).unread_after_suffix read, ?_⟩
    rintro (succeeds | ⟨-, unread_ne_nil⟩)
    · exact length_unread_after_lt (unread_ne_nil_of_succeeds succeeds) read
    · exact length_unread_after_lt unread_ne_nil read
  · intro reads enough
    have left := console.length_unread_after_le reads
    apply List.length_eq_zero_iff.mp
    omega

/--
A word that holds the beginning of a sequence and a NUL, and that a vertical tab ends. After it a
code point is asked of the tab, and four more reads go beyond the end.
-/
theorem words_read_in_order_nul_inside :
    let console : Console := ⟨[0x20, 0xE2, 0x82, 0x00, 0x0B, 0x41], []⟩
    (console.after []).readWord.1 = some [0xE2, 0x82, 0x00] ∧
      (∀ byte ∈ (console.after []).readWord.2.unread.head?, byte ∈ Byte.whitespace) ∧
      Read.succeeds (console.after [.word]) .point = true ∧
      (console.after [.word, .point]).unread.length < (console.after [.word]).unread.length ∧
      (console.after [.word, .point, .point, .word, .point, .word]).unread = [] := by
  intro console
  rcases words_read_in_order console with ⟨-, -, ends, shorter, exhausted⟩
  have read : (console.after []).readWord.1 = some [0xE2, 0x82, 0x00] := by
    decide
  have succeeds : Read.succeeds (console.after [.word]) .point = true := by
    decide
  exact ⟨read, ends [] _ read, succeeds, (shorter [.word] .point).2 (.inl succeeds),
    exhausted _ (by decide)⟩

end Console

end SpanMachine
