import SpanMachine.Execution.Effect
import SpanMachine.Proofs.Bytes.Utf8
import SpanMachine.Proofs.Storage.Stacks

/-!
# What one instruction does

An instruction asks for a jump if it is one and is taken, for the end of the run if it is
a halt, and for the next instruction otherwise. It reaches the stacks only by pushing,
popping and looking, so that whatever these operations keep of a store is kept by every
instruction. A code point that is read fits into every range of integers, and so it is
pushed without a curse.
-/

namespace SpanMachine

namespace Fraction

theorem toWord?_eq_some_iff {value : Fraction} {word : UInt64} :
    value.toWord? = some word ↔ value = ofInt word.toNat := by
  rcases value with ⟨num, den⟩
  have small := word.toNat_lt
  constructor
  · intro found
    simp only [toWord?, toInt?] at found
    split at found
    · rename_i value integer
      rw [Option.ite_none_right_eq_some, Option.some.injEq] at integer found
      rcases integer with ⟨den_one, rfl⟩
      rcases found with ⟨⟨not_negative, below⟩, rfl⟩
      have same_word : ((UInt64.ofNat num.toNat).toNat : Int) = num := by
        rw [UInt64.toNat_ofNat_of_lt' (by omega)]
        exact Int.toNat_of_nonneg not_negative
      rw [ofInt, same_word, ← den_one]
    · cases found
  · intro same
    rcases Fraction.mk.inj same with ⟨rfl, rfl⟩
    simp [toWord?, toInt?, UInt64.size]
    omega

theorem toNat_ofNat_of_isScalar {point : Nat} (scalar : Utf8.IsScalar point) :
    (UInt64.ofNat point).toNat = point := by
  have bounded := scalar.le
  rw [UInt64.toNat_ofNat']
  omega

theorem toPoint?_eq_some_iff {value : Fraction} {point : Nat} :
    value.toPoint? = some point ↔ value = ofInt point ∧ Utf8.IsScalar point := by
  rw [toPoint?, Option.filter_eq_some_iff, decide_eq_true_eq, Option.map_eq_some_iff]
  constructor
  · rintro ⟨⟨word, found, rfl⟩, scalar⟩
    exact ⟨toWord?_eq_some_iff.mp found, scalar⟩
  · rintro ⟨same, scalar⟩
    have same_word := toNat_ofNat_of_isScalar scalar
    refine ⟨⟨UInt64.ofNat point, ?_, same_word⟩, scalar⟩
    rw [toWord?_eq_some_iff, same_word]
    exact same

/-- Code points are small enough for every range. -/
theorem ofMagnitude_of_isScalar {point : Nat} (scalar : Utf8.IsScalar point) (range : Range) :
    ofMagnitude range (UInt64.ofNat point) = ⟨ofInt point, false⟩ := by
  have bounded := scalar.le
  have admitted : range.Admits point := by
    cases range with
    | bounded =>
        simp only [Range.Admits]
        omega
    | unbounded => trivial
  rw [ofMagnitude, toNat_ofNat_of_isScalar scalar, if_pos admitted]

end Fraction

namespace Console

theorem readPoint_eq_some_iff {console after : Console} {point : Nat} :
    console.readPoint = (some point, after) ↔
      Utf8.IsScalar point ∧ console.unread = Utf8.encode point ++ after.unread ∧
        after.output = console.output := by
  have read_eq : console.readPoint =
      ((Utf8.decode console.unread).1, ⟨(Utf8.decode console.unread).2, console.output⟩) :=
    rfl
  rw [← and_assoc, ← Utf8.decode_eq_some_iff, read_eq]
  constructor
  · intro read
    rcases Prod.mk.inj read with ⟨found, rfl⟩
    exact ⟨Prod.ext found rfl, rfl⟩
  · rintro ⟨decoded, same_output⟩
    rw [decoded, ← same_output]

end Console

namespace Machine

theorem combineAt_eq (range : Range) (operator : Operator) (machine : Machine) (index : Nat) :
    combineAt range operator machine index =
      let left := machine.store.pop index
      let right := left.2.pop (index + 1)
      let answer := Fraction.combine range operator left.1.value right.1.value
      { store := right.2.push (index + 1) answer.value
        queue := machine.queue
        curses := machine.curses + left.1.curses + right.1.curses + answer.curses } :=
  rfl

@[simp]
theorem curses_push (machine : Machine) (index : Nat) (value : Fraction) :
    (machine.push index value).curses = machine.curses :=
  rfl

@[simp]
theorem curses_pushAll (machine : Machine) (indexes : List Nat) (value : Fraction) :
    (machine.pushAll indexes value).curses = machine.curses := by
  induction indexes generalizing machine with
  | nil => rfl
  | cons index rest ih =>
      change ((machine.push index value).pushAll rest value).curses = machine.curses
      rw [ih, curses_push]

theorem getPoint_of_readPoint {console after : Console} {point : Nat}
    (read : console.readPoint = (some point, after)) (machine : Machine) (range : Range)
    (index : Nat) :
    machine.getPoint range index console = (machine.push index (.ofInt point), after) := by
  have scalar := (Console.readPoint_eq_some_iff.mp read).1
  simp only [getPoint, read, Fraction.ofMagnitude_of_isScalar scalar]
  rfl

theorem curses_getPoint (machine : Machine) (range : Range) (index : Nat) (console : Console) :
    (machine.getPoint range index console).1.curses = machine.curses +
      if console.readPoint.1.isNone then 1 else 0 := by
  cases found : console.readPoint.1 with
  | none =>
      simp only [getPoint, found]
      rfl
  | some point =>
      have read : console.readPoint = (some point, console.readPoint.2) := Prod.ext found rfl
      rw [getPoint_of_readPoint read]
      rfl

/--
A look at one stack is all that happened: there is at most one more curse, and at most
one empty stack that was absent before.
-/
structure Inspected (before after : Machine) : Prop where
  queue : after.queue = before.queue
  curses : after.curses = before.curses ∨ after.curses = before.curses + 1
  store : after.store = before.store ∨
    ∃ index, before.store.get? index = none ∧ after.store = before.store.set index []

theorem inspected_self (machine : Machine) : Inspected machine machine :=
  ⟨rfl, Or.inl rfl, Or.inl rfl⟩

theorem topSign_eq (machine : Machine) (index : Nat) :
    machine.topSign index =
      ((Fraction.orCurse (machine.store.peek? index)).map Fraction.sign,
        { machine with
          store := (machine.store.top index).2
          curses :=
            machine.curses + if (machine.store.peek? index).isNone then 1 else 0 }) := by
  have answered : (machine.store.top index).1 = Fraction.orCurse (machine.store.peek? index) := by
    rw [Stacks.top_eq]
  rw [← Fraction.curses_orCurse, ← answered]
  rfl

theorem inspected_topSign (machine : Machine) (index : Nat) :
    Inspected machine (machine.topSign index).2 := by
  rw [topSign_eq]
  refine ⟨rfl, ?_, ?_⟩
  · cases (machine.store.peek? index).isNone with
    | false => exact Or.inl rfl
    | true => exact Or.inr rfl
  · rw [Stacks.top_eq]
    simp only
    split
    · rename_i created
      cases found : machine.store.get? index with
      | none => exact Or.inr ⟨index, found, rfl⟩
      | some values =>
          -- The stack was there and empty, so that setting it to nothing changes nothing.
          have empty : values = [] := by
            simpa [Stacks.content, found] using created.2
          rw [empty] at found
          exact Or.inl (Stacks.set_of_get? found)
    · exact Or.inl rfl

end Machine

namespace Stacks.Lasting

variable {property : Stacks → Prop}

theorem pushAll (lasting : Lasting property) {machine : Machine}
    (holds : property machine.store) (indexes : List Nat) (value : Fraction) :
    property (machine.pushAll indexes value).store := by
  induction indexes generalizing machine with
  | nil => exact holds
  | cons index rest ih =>
      have pushed : property (machine.push index value).store := lasting.push holds index value
      exact ih pushed

theorem combineAt (lasting : Lasting property) {machine : Machine}
    (holds : property machine.store) (range : Range) (operator : Operator) (index : Nat) :
    property (Machine.combineAt range operator machine index).store := by
  have left_taken := lasting.pop holds index
  have right_taken := lasting.pop left_taken (index + 1)
  exact lasting.push right_taken (index + 1) _

theorem foldl_combineAt (lasting : Lasting property) {machine : Machine}
    (holds : property machine.store) (range : Range) (operator : Operator) (indexes : List Nat) :
    property (indexes.foldl (Machine.combineAt range operator) machine).store := by
  induction indexes generalizing machine with
  | nil => exact holds
  | cons index rest ih => exact ih (lasting.combineAt holds range operator index)

/-- No instruction touches the stacks in any other way. -/
theorem execute (lasting : Lasting property) {machine : Machine}
    (holds : property machine.store) (instruction : Instruction) (range : Range)
    (console : Console) : property (instruction.execute range machine console).machine.store := by
  rcases instruction with ⟨opcode, span, magnitude, origin⟩
  cases opcode with
  | push =>
      simp only [Instruction.execute, Effect.next, Machine.pushMagnitude]
      split
      · exact holds
      · have absorbed : property (machine.absorb (Fraction.ofMagnitude range magnitude)).store :=
          holds
        exact lasting.pushAll absorbed _ _
  | combine operator => exact lasting.foldl_combineAt holds range operator _
  | enqueue => exact lasting.pop holds span.toNat
  | dequeue => exact lasting.push holds span.toNat _
  | spread => exact lasting.pushAll (lasting.top holds 1) _ _
  | jumpUnlessPositive => exact lasting.top holds span.toNat
  | jump => exact holds
  | putNumber => exact lasting.pop holds span.toNat
  | putPoint =>
      have popped := lasting.pop holds span.toNat
      simp only [Instruction.execute, Effect.next, Machine.putPoint]
      split
      · exact popped
      · split
        · exact popped
        · exact popped
  | getNumber =>
      simp only [Instruction.execute, Effect.next, Machine.getNumber]
      split
      · exact lasting.push holds span.toNat _
      · exact lasting.push holds span.toNat _
  | getPoint =>
      simp only [Instruction.execute, Effect.next, Machine.getPoint]
      split
      · exact lasting.push holds span.toNat _
      · exact lasting.push holds span.toNat _
  | halt => exact holds

end Stacks.Lasting

namespace Instruction

/-- A jump that is taken: any plain jump, or one on a stack without a positive top. -/
def Jumps (instruction : Instruction) (machine : Machine) : Prop :=
  instruction.opcode = .jump ∨
    (instruction.opcode = .jumpUnlessPositive ∧
      ∀ top ∈ machine.store.peek? instruction.span.toNat, top.sign ≤ 0)

instance (instruction : Instruction) (machine : Machine) :
    Decidable (instruction.Jumps machine) :=
  inferInstanceAs (Decidable (_ ∨ _))

theorem sign_orCurse_le_zero_iff (value? : Option Fraction) :
    ((Fraction.orCurse value?).map Fraction.sign).value ≤ 0 ↔
      ∀ value ∈ value?, value.sign ≤ 0 := by
  cases value? with
  | none => simp [Fraction.orCurse, Fraction.curse, Answer.map, Fraction.sign, Fraction.zero]
  | some value => simp [Fraction.orCurse, Answer.map]

theorem move_of_jumps {instruction : Instruction} {machine : Machine}
    (jumps : instruction.Jumps machine) (range : Range) (console : Console) :
    (instruction.execute range machine console).move = .jump instruction.magnitude := by
  rcases jumps with plain | ⟨conditional, taken⟩
  · simp only [execute, plain]
  · simp only [execute, conditional, Machine.topSign_eq, sign_orCurse_le_zero_iff]
    exact if_pos taken

theorem move_of_halt {instruction : Instruction} (halts : instruction.opcode = .halt)
    (range : Range) (machine : Machine) (console : Console) :
    (instruction.execute range machine console).move = .halt := by
  simp only [execute, halts]

theorem move_of_no_jump {instruction : Instruction} {machine : Machine}
    (no_jump : ¬instruction.Jumps machine) (no_halt : instruction.opcode ≠ .halt)
    (range : Range) (console : Console) :
    (instruction.execute range machine console).move = .advance := by
  rcases instruction with ⟨opcode, span, magnitude, origin⟩
  cases opcode with
  | jumpUnlessPositive =>
      simp only [execute, Machine.topSign_eq, sign_orCurse_le_zero_iff]
      exact if_neg fun taken => no_jump (Or.inr ⟨rfl, taken⟩)
  | jump => exact absurd (Or.inl rfl) no_jump
  | halt => exact absurd rfl no_halt
  | push | combine | enqueue | dequeue | spread | putNumber | putPoint | getNumber | getPoint =>
      rfl

theorem Jumps.inspected {instruction : Instruction} {machine : Machine}
    (jumps : instruction.Jumps machine) (range : Range) (console : Console) :
    Machine.Inspected machine (instruction.execute range machine console).machine ∧
      (instruction.execute range machine console).console = console := by
  rcases jumps with plain | ⟨conditional, -⟩
  · simp only [execute, plain, and_true]
    exact machine.inspected_self
  · simp only [execute, conditional, and_true]
    exact machine.inspected_topSign _

end Instruction

end SpanMachine
