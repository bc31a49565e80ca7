import Mathlib.Data.List.TakeWhile
import SpanMachine.Bytes.Utf8

/-!
# UTF-8 sequences

A lead byte announces how many continuation bytes belong to it. Decoding takes them off
the front of a text one after another and stops at a byte that is none. What it takes is
the longest run of continuation bytes up to the announced number, whether or not the
sequence is accepted in the end.

The bits of a sequence determine its bytes once its length is known, and a value that is
not below the least of a length is encoded with that length. So the sequence that is
accepted for a code point is the one that encoding writes for it, and there is no other.
-/

namespace SpanMachine

namespace Utf8

theorem IsScalar.le {point : Nat} (scalar : IsScalar point) : point ≤ 0x10FFFF := by
  rcases scalar with low | high <;> omega

theorem isContinuation_iff {byte : UInt8} :
    isContinuation byte = true ↔ 0x80 ≤ byte.toNat ∧ byte.toNat < 0xC0 := by
  simp [isContinuation, UInt8.le_iff_toNat_le, UInt8.lt_iff_toNat_lt]

theorem announced?_eq_some_iff {lead : UInt8} {count : Nat} :
    announced? lead = some count ↔
      (count = 0 ∧ lead.toNat < 0x80) ∨
        (count = 1 ∧ 0xC0 ≤ lead.toNat ∧ lead.toNat < 0xE0) ∨
        (count = 2 ∧ 0xE0 ≤ lead.toNat ∧ lead.toNat < 0xF0) ∨
        (count = 3 ∧ 0xF0 ≤ lead.toNat ∧ lead.toNat < 0xF8) := by
  simp only [announced?, UInt8.lt_iff_toNat_lt, UInt8.reduceToNat]
  repeat' split
  all_goals
    simp only [Option.some.injEq, reduceCtorEq, false_iff]
    omega

/-- Some bits followed by those of a continuation byte. -/
def carry (bits : Nat) (byte : UInt8) : Nat :=
  bits * 0x40 + byte.toNat % 0x40

/-- The longest run of continuation bytes in front of a text, up to the given number of them. -/
def taken (limit : Nat) (text : Bytes) : Bytes :=
  (text.takeWhile isContinuation).take limit

theorem taken_append_drop (limit : Nat) (text : Bytes) :
    taken limit text ++ text.drop (taken limit text).length = text := by
  have is_front : taken limit text <+: text :=
    (List.take_prefix _ _).trans (List.takeWhile_prefix _)
  exact (List.prefix_iff_eq_append.mp is_front)

theorem isContinuation_of_mem_taken {limit : Nat} {text : Bytes} {byte : UInt8}
    (byte_mem : byte ∈ taken limit text) : isContinuation byte = true :=
  List.mem_takeWhile_imp (List.mem_of_mem_take byte_mem)

theorem length_taken_le (limit : Nat) (text : Bytes) : (taken limit text).length ≤ limit := by
  rw [taken, List.length_take]
  exact Nat.min_le_left _ _

theorem taken_append {tail : Bytes} (continued : ∀ byte ∈ tail, isContinuation byte = true)
    (rest : Bytes) : taken tail.length (tail ++ rest) = tail := by
  rw [taken, List.takeWhile_append_of_pos continued]
  exact List.take_left

theorem length_taken_eq_or_head? (limit : Nat) (text : Bytes) :
    (taken limit text).length = limit ∨
      ∀ byte ∈ (text.drop (taken limit text).length).head?, isContinuation byte = false := by
  induction text generalizing limit with
  | nil => simp [taken]
  | cons byte rest ih =>
      by_cases continued : isContinuation byte = true
      · cases limit with
        | zero => simp [taken]
        | succ limit => simpa [taken, continued] using ih limit
      · simp [taken, continued]

theorem gather_eq (count bits : Nat) (text : Bytes) :
    gather count bits text =
      (if (taken count text).length = count then some ((taken count text).foldl carry bits)
        else none,
        text.drop (taken count text).length) := by
  fun_induction gather count bits text with
  | case1 bits text => simp [taken]
  | case2 count bits => simp [taken]
  | case3 count bits byte rest continued ih =>
      rw [ih]
      simp [taken, continued, carry]
  | case4 count bits byte rest broken =>
      simp [taken, broken]

/-- A sequence of the announced length, with the value that its bits have. -/
structure Spells (lead : UInt8) (tail : Bytes) (value : Nat) : Prop where
  announced : announced? lead = some tail.length
  continued : ∀ byte ∈ tail, isContinuation byte = true
  bits : tail.foldl carry (leadBits lead tail.length) = value

theorem decode_eq_some_iff_spells {text rest : Bytes} {point : Nat} :
    decode text = (some point, rest) ↔
      ∃ lead tail, text = lead :: (tail ++ rest) ∧ Spells lead tail point ∧
        least tail.length ≤ point ∧ IsScalar point := by
  constructor
  · intro decoded
    cases text with
    | nil => simp [decode] at decoded
    | cons lead text =>
        cases announced : announced? lead with
        | none => simp [decode, announced] at decoded
        | some count =>
            simp only [decode, announced, gather_eq, Prod.mk.injEq, Option.filter_eq_some_iff,
              Option.ite_none_right_eq_some, Option.some.injEq, decide_eq_true_eq] at decoded
            rcases decoded with ⟨⟨⟨complete, value⟩, long_enough, scalar⟩, rest_eq⟩
            refine ⟨lead, taken count text, ?_, ⟨?_, ?_, ?_⟩, ?_, scalar⟩
            · rw [← rest_eq, taken_append_drop]
            · rw [announced, complete]
            · intro byte byte_mem
              exact isContinuation_of_mem_taken byte_mem
            · rw [complete]
              exact value
            · rw [complete]
              exact long_enough
  · rintro ⟨lead, tail, rfl, spells, long_enough, scalar⟩
    have value := spells.bits
    simp [decode, spells.announced, gather_eq, taken_append spells.continued, value, long_enough,
      scalar]

theorem ofNat_eq (value : Nat) (byte : UInt8) (same : value % 0x100 = byte.toNat) :
    UInt8.ofNat value = byte := by
  rw [← UInt8.toNat_inj, UInt8.toNat_ofNat']
  exact same

/-- A continuation byte is known by its six lowest bits. -/
theorem continuation_eq_iff (value : Nat) (byte : UInt8) :
    continuation value = byte ↔
      isContinuation byte = true ∧ byte.toNat % 0x40 = value % 0x40 := by
  rw [continuation, ← UInt8.toNat_inj, UInt8.toNat_ofNat', isContinuation_iff]
  omega

theorem or_eq_add {high : Nat} (small : high < 0x08) : 0xF0 ||| high = 0xF0 + high := by
  decide +revert

/-- The bits of a sequence and its length determine its bytes. -/
theorem Spells.encode_eq {lead : UInt8} {tail : Bytes} {point : Nat}
    (spells : Spells lead tail point) (long_enough : least tail.length ≤ point) :
    encode point = lead :: tail := by
  rcases spells with ⟨announced, continued, bits⟩
  rw [announced?_eq_some_iff] at announced
  match tail with
  | [] =>
      simp only [List.length_nil, List.foldl_nil, leadBits] at announced bits
      rw [encode, if_pos (by omega), ofNat_eq _ lead (by omega)]
  | [first] =>
      simp only [List.forall_mem_cons, List.length_cons, List.length_nil, List.foldl_cons,
        List.foldl_nil, carry, leadBits, least] at announced continued bits long_enough
      rw [encode, if_neg (by omega), if_pos (by omega), ofNat_eq _ lead (by omega),
        (continuation_eq_iff _ first).mpr ⟨continued.1, by omega⟩]
  | [first, second] =>
      simp only [List.forall_mem_cons, List.length_cons, List.length_nil, List.foldl_cons,
        List.foldl_nil, carry, leadBits, least] at announced continued bits long_enough
      rw [encode, if_neg (by omega), if_neg (by omega), if_pos (by omega),
        ofNat_eq _ lead (by omega), (continuation_eq_iff _ first).mpr ⟨continued.1, by omega⟩,
        (continuation_eq_iff _ second).mpr ⟨continued.2.1, by omega⟩]
  | [first, second, third] =>
      simp only [List.forall_mem_cons, List.length_cons, List.length_nil, List.foldl_cons,
        List.foldl_nil, carry, leadBits, least] at announced continued bits long_enough
      rw [encode, if_neg (by omega), if_neg (by omega), if_neg (by omega), or_eq_add (by omega),
        ofNat_eq _ lead (by omega), (continuation_eq_iff _ first).mpr ⟨continued.1, by omega⟩,
        (continuation_eq_iff _ second).mpr ⟨continued.2.1, by omega⟩,
        (continuation_eq_iff _ third).mpr ⟨continued.2.2.1, by omega⟩]
  | _ :: _ :: _ :: _ :: _ =>
      simp only [List.length_cons] at announced
      omega

theorem spells_encode {point : Nat} (scalar : IsScalar point) :
    ∃ lead tail, encode point = lead :: tail ∧ Spells lead tail point ∧
      least tail.length ≤ point := by
  have continued (value : Nat) : isContinuation (continuation value) = true :=
    ((continuation_eq_iff value _).mp rfl).1
  have low_bits (value : Nat) : (continuation value).toNat % 0x40 = value % 0x40 :=
    ((continuation_eq_iff value _).mp rfl).2
  by_cases one_byte : point < 0x80
  · rw [encode, if_pos one_byte]
    refine ⟨_, _, rfl, ⟨announced?_eq_some_iff.mpr (.inl ⟨rfl, ?_⟩), by simp, ?_⟩, ?_⟩
    all_goals
      simp only [List.length_nil, List.foldl_nil, leadBits, least, UInt8.toNat_ofNat']
      omega
  by_cases two_bytes : point < 0x800
  · rw [encode, if_neg one_byte, if_pos two_bytes]
    refine ⟨_, _, rfl, ⟨announced?_eq_some_iff.mpr (.inr (.inl ⟨rfl, ?_, ?_⟩)),
      by simp [continued], ?_⟩, ?_⟩
    all_goals
      simp only [List.length_cons, List.length_nil, List.foldl_cons, List.foldl_nil, carry,
        low_bits, leadBits, least, UInt8.toNat_ofNat']
      omega
  by_cases three_bytes : point < 0x10000
  · rw [encode, if_neg one_byte, if_neg two_bytes, if_pos three_bytes]
    refine ⟨_, _, rfl, ⟨announced?_eq_some_iff.mpr (.inr (.inr (.inl ⟨rfl, ?_, ?_⟩))),
      by simp [continued], ?_⟩, ?_⟩
    all_goals
      simp only [List.length_cons, List.length_nil, List.foldl_cons, List.foldl_nil, carry,
        low_bits, leadBits, least, UInt8.toNat_ofNat']
      omega
  · have high_bits : point / 0x40000 < 0x08 := by
      have bounded := scalar.le
      omega
    rw [encode, if_neg one_byte, if_neg two_bytes, if_neg three_bytes, or_eq_add high_bits]
    refine ⟨_, _, rfl, ⟨announced?_eq_some_iff.mpr (.inr (.inr (.inr ⟨rfl, ?_, ?_⟩))),
      by simp [continued], ?_⟩, ?_⟩
    all_goals
      simp only [List.length_cons, List.length_nil, List.foldl_cons, List.foldl_nil, carry,
        low_bits, leadBits, least, UInt8.toNat_ofNat']
      omega

/-- Decoding accepts the sequences that encoding writes for scalar values, and no others. -/
theorem decode_eq_some_iff {text rest : Bytes} {point : Nat} :
    decode text = (some point, rest) ↔ IsScalar point ∧ text = encode point ++ rest := by
  rw [decode_eq_some_iff_spells]
  constructor
  · rintro ⟨lead, tail, rfl, spells, long_enough, scalar⟩
    rw [spells.encode_eq long_enough]
    exact ⟨scalar, rfl⟩
  · rintro ⟨scalar, rfl⟩
    rcases spells_encode scalar with ⟨lead, tail, written, spells, long_enough⟩
    rw [written]
    exact ⟨lead, tail, rfl, spells, long_enough, scalar⟩

theorem decode_cons_snd (lead : UInt8) (text : Bytes) :
    (decode (lead :: text)).2 =
      text.drop (taken ((announced? lead).getD 0) text).length := by
  cases announced : announced? lead with
  | none => simp [decode, announced, taken]
  | some count => simp [decode, announced, gather_eq]

theorem gather_snd_suffix (count bits : Nat) (text : Bytes) :
    (gather count bits text).2 <:+ text := by
  simp only [gather_eq]
  exact List.drop_suffix _ text

theorem decode_snd_suffix (text : Bytes) : (decode text).2 <:+ text := by
  cases text with
  | nil => exact List.suffix_refl []
  | cons lead rest =>
      simp only [decode_cons_snd]
      exact (List.drop_suffix _ rest).trans (List.suffix_cons lead rest)

/-- What decoding takes off a text, whether or not it accepts it. -/
theorem exists_taken (lead : UInt8) (text : Bytes) :
    ∃ tail, text = tail ++ (decode (lead :: text)).2 ∧
      (∀ byte ∈ tail, isContinuation byte = true) ∧
      tail.length ≤ (announced? lead).getD 0 ∧
      (tail.length = (announced? lead).getD 0 ∨
        ∀ byte ∈ (decode (lead :: text)).2.head?, isContinuation byte = false) := by
  rw [decode_cons_snd]
  refine ⟨taken ((announced? lead).getD 0) text, ?_, ?_, ?_, ?_⟩
  · exact (taken_append_drop _ text).symm
  · intro byte byte_mem
    exact isContinuation_of_mem_taken byte_mem
  · exact length_taken_le _ text
  · exact length_taken_eq_or_head? _ text

theorem announced?_getD_le (lead : UInt8) : (announced? lead).getD 0 ≤ 3 := by
  cases announced : announced? lead with
  | none => simp
  | some count =>
      rw [announced?_eq_some_iff] at announced
      rw [Option.getD_some]
      omega

end Utf8

end SpanMachine
