import SpanMachine.Number.Arithmetic

/-!
# Numbered stacks

A machine owns one stack for every positive number, created when it is first
mentioned: pushing creates it, and so do popping it and looking at its top. An
absent stack and an empty one therefore answer alike but are told apart.

There is no stack zero. A value pushed onto it is dropped, and asking it for a
value raises a curse.

Stacks are kept in increasing order of their numbers, each with its top first. The
order is part of the type, so there is only one way to keep the same stacks.
-/

namespace SpanMachine

/-- The stacks mentioned so far. -/
structure Stacks where
  entries : List (Nat × List Fraction) := []
  increasing : entries.Pairwise (fun first second => first.1 < second.1) := by decide
  deriving DecidableEq

namespace Stacks

/-- The content of a stack, top first, if it was ever mentioned. -/
def get? (store : Stacks) (index : Nat) : Option (List Fraction) :=
  store.entries.lookup index

/-- The content of a stack, top first. An absent stack holds nothing. -/
def content (store : Stacks) (index : Nat) : List Fraction :=
  (store.get? index).getD []

/-- The number of values on a stack. -/
def size (store : Stacks) (index : Nat) : Nat :=
  (store.content index).length

/-- Puts an entry in its place by number, instead of an entry of the same number. -/
def place (index : Nat) (content : List Fraction) :
    List (Nat × List Fraction) → List (Nat × List Fraction)
  | [] => [(index, content)]
  | (other, kept) :: rest =>
    if index < other then
      (index, content) :: (other, kept) :: rest
    else if index = other then
      (index, content) :: rest
    else
      (other, kept) :: place index content rest

theorem mem_place {index : Nat} {content : List Fraction} {entries : List (Nat × List Fraction)}
    {entry : Nat × List Fraction} (entry_mem : entry ∈ place index content entries) :
    entry = (index, content) ∨ entry ∈ entries := by
  induction entries with
  | nil => simpa [place] using entry_mem
  | cons first rest ih =>
    obtain ⟨other, kept⟩ := first
    simp only [place] at entry_mem
    split at entry_mem
    · simpa using entry_mem
    · split at entry_mem
      · rcases List.mem_cons.mp entry_mem with here | later
        · exact Or.inl here
        · exact Or.inr (List.mem_cons_of_mem _ later)
      · rcases List.mem_cons.mp entry_mem with here | later
        · exact Or.inr (here ▸ List.mem_cons_self)
        · rcases ih later with placed | old
          · exact Or.inl placed
          · exact Or.inr (List.mem_cons_of_mem _ old)

/-- An entry that is put in its place does not disturb the order. -/
theorem pairwise_place (index : Nat) (content : List Fraction)
    {entries : List (Nat × List Fraction)}
    (increasing : entries.Pairwise fun first second => first.1 < second.1) :
    (place index content entries).Pairwise fun first second => first.1 < second.1 := by
  induction entries with
  | nil => simp [place]
  | cons first rest ih =>
    obtain ⟨other, kept⟩ := first
    obtain ⟨above, rest_increasing⟩ := List.pairwise_cons.mp increasing
    simp only [place]
    split
    · rename_i below
      refine List.pairwise_cons.mpr ⟨?_, increasing⟩
      intro entry entry_mem
      rcases List.mem_cons.mp entry_mem with rfl | later
      · exact below
      · exact Nat.lt_trans below (above entry later)
    · split
      · rename_i here
        exact List.pairwise_cons.mpr ⟨here ▸ above, rest_increasing⟩
      · rename_i not_below not_here
        refine List.pairwise_cons.mpr ⟨?_, ih rest_increasing⟩
        intro entry entry_mem
        rcases mem_place entry_mem with rfl | old
        · exact Nat.lt_of_le_of_ne (Nat.le_of_not_lt not_below) (Ne.symm not_here)
        · exact above entry old

/-- Replaces the content of a stack, which is created if it is absent. -/
def set (store : Stacks) (index : Nat) (content : List Fraction) : Stacks :=
  ⟨place index content store.entries, pairwise_place index content store.increasing⟩

theorem lookup_place_self (index : Nat) (content : List Fraction)
    (entries : List (Nat × List Fraction)) :
    (place index content entries).lookup index = some content := by
  induction entries with
  | nil => simp [place]
  | cons entry rest ih =>
    obtain ⟨other, kept⟩ := entry
    simp only [place]
    split
    · simp
    · split
      · simp
      · rename_i index_ne_other
        simp only [List.lookup_cons, beq_false_of_ne index_ne_other]
        exact ih

theorem lookup_place_of_ne {index other : Nat} (other_ne_index : other ≠ index)
    (content : List Fraction) (entries : List (Nat × List Fraction)) :
    (place index content entries).lookup other = entries.lookup other := by
  induction entries with
  | nil => simp only [place, List.lookup_cons, beq_false_of_ne other_ne_index]
  | cons entry rest ih =>
    obtain ⟨first, kept⟩ := entry
    simp only [place]
    split
    · rw [List.lookup_cons, beq_false_of_ne other_ne_index]
    · split
      · rename_i index_eq_first
        subst index_eq_first
        simp only [List.lookup_cons, beq_false_of_ne other_ne_index]
      · simp only [List.lookup_cons, ih]

/-- A stack holds what it was last set to. -/
@[simp]
theorem get?_set_self (store : Stacks) (index : Nat) (content : List Fraction) :
    (store.set index content).get? index = some content :=
  lookup_place_self index content store.entries

/-- Setting one stack leaves the others alone. -/
theorem get?_set_of_ne {index other : Nat} (other_ne_index : other ≠ index) (store : Stacks)
    (content : List Fraction) :
    (store.set index content).get? other = store.get? other :=
  lookup_place_of_ne other_ne_index content store.entries

/-- Puts a value on top of a stack. -/
def push (store : Stacks) (index : Nat) (value : Fraction) : Stacks :=
  if index = 0 then store else store.set index (value :: store.content index)

/-- Takes the top off a stack. -/
def pop (store : Stacks) (index : Nat) : Answer Fraction × Stacks :=
  if index = 0 then
    (Fraction.curse, store)
  else
    match store.content index with
    | [] => (Fraction.curse, store.set index [])
    | top :: rest => (⟨top, false⟩, store.set index rest)

/-- Looks at the top of a stack without taking it. -/
def top (store : Stacks) (index : Nat) : Answer Fraction × Stacks :=
  if index = 0 then
    (Fraction.curse, store)
  else
    match store.content index with
    | [] => (Fraction.curse, store.set index [])
    | top :: _ => (⟨top, false⟩, store)

/-- Looks at the sign of the top of a stack. -/
def topSign (store : Stacks) (index : Nat) : Answer Int × Stacks :=
  let (answer, store) := store.top index
  (answer.map Fraction.sign, store)

end Stacks

end SpanMachine
