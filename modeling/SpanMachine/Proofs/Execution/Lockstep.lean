import SpanMachine.Proofs.Execution.Steps
import SpanMachine.Proofs.Number.Overflow

/-!
# Bounded and unbounded runs in lockstep

The same program is run on the same input once with bounded and once with unbounded
numbers. As long as no bounded number overflows, the two runs are in the same state.
The first overflow is seen in the count of curses: the bounded run raises more of
them in that step than the unbounded run does.

An instruction is compared from a common state. A chain of operators goes on after an
overflow with another left operand than the unbounded chain has. From there on the two
machines differ in one value only, the top of the stack that the chain has reached.
That value is taken by the next operator of the chain and never decides whether it is
cursed without bounds, so that the unbounded machine cannot catch up.
-/

namespace SpanMachine

namespace Machine

/--
Both machines hold the same values except for the top of one stack, and the first one
has raised more curses.
-/
structure Ahead (index : Nat) (ahead behind : Machine) : Prop where
  curses : behind.curses < ahead.curses
  queue : ahead.queue = behind.queue
  store : ∃ (store : Stacks) (left right : Fraction),
    ahead.store = store.push index left ∧ behind.store = store.push index right

/-- One operator of a chain, from a common state. -/
theorem combineAt_bounded (operator : Operator) (machine : Machine) (index : Nat) :
    combineAt .bounded operator machine index = combineAt .unbounded operator machine index ∨
      Ahead (index + 1) (combineAt .bounded operator machine index)
        (combineAt .unbounded operator machine index) := by
  simp only [combineAt_eq]
  rcases Fraction.combine_bounded operator (machine.store.pop index).1.value
    ((machine.store.pop index).2.pop (index + 1)).1.value with equal | overflow
  · left
    rw [equal]
  · right
    refine ⟨?_, rfl, _, _, _, rfl, rfl⟩
    simp only
    omega

/-- One operator of a chain, after an overflow further down the chain. -/
theorem Ahead.combineAt {index : Nat} {ahead behind : Machine} (index_ne_zero : index ≠ 0)
    (parted : Ahead index ahead behind) (operator : Operator) :
    Ahead (index + 1) (combineAt .bounded operator ahead index)
      (combineAt .unbounded operator behind index) := by
  rcases parted.store with ⟨store, left, right, ahead_store, behind_store⟩
  simp only [combineAt_eq, ahead_store, behind_store, Stacks.pop_push_self index_ne_zero]
  refine ⟨?_, parted.queue, _, _, _, rfl, rfl⟩
  have fewer := parted.curses
  have not_more := Fraction.curses_combine_le operator right left
    ((store.set index (store.content index)).pop (index + 1)).1.value
  simp only [Answer.curses] at not_more ⊢
  omega

/-- A chain of operators that has already parted, or that is about to start. -/
theorem foldl_combineAt_bounded (operator : Operator) (count index : Nat)
    (index_ne_zero : index ≠ 0) (bounded unbounded : Machine)
    (related : bounded = unbounded ∨ Ahead index bounded unbounded) :
    (List.range' index count).foldl (combineAt .bounded operator) bounded =
        (List.range' index count).foldl (combineAt .unbounded operator) unbounded ∨
      ∃ last, Ahead last ((List.range' index count).foldl (combineAt .bounded operator) bounded)
        ((List.range' index count).foldl (combineAt .unbounded operator) unbounded) := by
  induction count generalizing index bounded unbounded with
  | zero =>
      rcases related with equal | parted
      · exact Or.inl equal
      · exact Or.inr ⟨index, parted⟩
  | succ count ih =>
      rw [List.range'_succ, List.foldl_cons, List.foldl_cons]
      apply ih (index + 1) (by omega)
      rcases related with rfl | parted
      · exact combineAt_bounded operator bounded index
      · exact Or.inr (parted.combineAt index_ne_zero operator)

theorem combine_bounded (machine : Machine) (operator : Operator) (span : Nat) :
    machine.combine .bounded operator span = machine.combine .unbounded operator span ∨
      (machine.combine .unbounded operator span).curses <
        (machine.combine .bounded operator span).curses := by
  rcases foldl_combineAt_bounded operator (span - 1) 1 (by omega) machine machine (Or.inl rfl)
    with equal | ⟨last, parted⟩
  · exact Or.inl equal
  · exact Or.inr parted.curses

theorem pushMagnitude_bounded (machine : Machine) (span : Nat) (magnitude : UInt64) :
    machine.pushMagnitude .bounded span magnitude =
        machine.pushMagnitude .unbounded span magnitude ∨
      (machine.pushMagnitude .unbounded span magnitude).curses <
        (machine.pushMagnitude .bounded span magnitude).curses := by
  by_cases span_zero : span = 0
  · left
    simp [pushMagnitude, span_zero]
  · simp only [pushMagnitude, span_zero, if_false, curses_pushAll, absorb]
    rcases Fraction.ofMagnitude_bounded magnitude with equal | overflow
    · left
      rw [equal]
    · right
      omega

theorem getNumber_bounded (machine : Machine) (index : Nat) (console : Console) :
    machine.getNumber .bounded index console = machine.getNumber .unbounded index console ∨
      (machine.getNumber .unbounded index console).1.curses <
        (machine.getNumber .bounded index console).1.curses := by
  simp only [getNumber]
  cases bounded_read : console.readWord.1.bind (Numeral.read? .bounded) with
  | some value =>
      rcases Option.bind_eq_some_iff.mp bounded_read with ⟨word, found, read⟩
      have unbounded_read : console.readWord.1.bind (Numeral.read? .unbounded) = some value := by
        rw [found]
        exact Numeral.read?_unbounded_of_bounded read
      left
      rw [unbounded_read]
  | none =>
      cases unbounded_read : console.readWord.1.bind (Numeral.read? .unbounded) with
      | none => exact Or.inl rfl
      | some value =>
          right
          simp [curse]

theorem getPoint_bounded (machine : Machine) (index : Nat) (console : Console) :
    machine.getPoint .bounded index console = machine.getPoint .unbounded index console ∨
      (machine.getPoint .unbounded index console).1.curses <
        (machine.getPoint .bounded index console).1.curses := by
  simp only [getPoint]
  cases found : console.readPoint.1 with
  | none => exact Or.inl rfl
  | some point =>
      rcases Fraction.ofMagnitude_bounded (UInt64.ofNat point) with equal | overflow
      · left
        simp only [equal]
      · right
        simp only [curses_push, absorb]
        omega

end Machine

namespace Instruction

/-- One instruction from a common state: both ranges agree, or the bounded one is found out. -/
theorem execute_bounded (instruction : Instruction) (machine : Machine) (console : Console) :
    instruction.execute .bounded machine console =
        instruction.execute .unbounded machine console ∨
      (instruction.execute .unbounded machine console).machine.curses <
        (instruction.execute .bounded machine console).machine.curses := by
  rcases instruction with ⟨opcode, span, magnitude, origin⟩
  cases opcode with
  | push =>
      rcases machine.pushMagnitude_bounded span.toNat magnitude with equal | overflow
      · exact Or.inl (by simp only [execute, equal])
      · exact Or.inr overflow
  | combine operator =>
      rcases machine.combine_bounded operator span.toNat with equal | overflow
      · exact Or.inl (by simp only [execute, equal])
      · exact Or.inr overflow
  | getNumber =>
      rcases machine.getNumber_bounded span.toNat console with equal | overflow
      · exact Or.inl (by simp only [execute, equal])
      · exact Or.inr overflow
  | getPoint =>
      rcases machine.getPoint_bounded span.toNat console with equal | overflow
      · exact Or.inl (by simp only [execute, equal])
      · exact Or.inr overflow
  | enqueue | dequeue | spread | jumpUnlessPositive | jump | putNumber | putPoint | halt =>
      exact Or.inl rfl

end Instruction

namespace Run

/-- One step from a common state. -/
theorem step_bounded (run : Run) (program : Program) :
    run.step .bounded program = run.step .unbounded program ∨
      (run.step .unbounded program).2.machine.curses <
        (run.step .bounded program).2.machine.curses := by
  simp only [step]
  split
  · split
    · exact Or.inl rfl
    · rename_i instruction fetched
      rcases instruction.execute_bounded run.machine run.console with equal | overflow
      · left
        simp only [perform, equal]
      · right
        simp only [machine_follow]
        exact overflow
  · exact Or.inl rfl

/-- Where two runs from a common state first differ, the bounded one has more curses. -/
theorem steps_succ_bounded (run : Run) (program : Program) (count : Nat)
    (agree : run.steps .bounded program count = run.steps .unbounded program count) :
    run.steps .bounded program (count + 1) = run.steps .unbounded program (count + 1) ∨
      (run.steps .unbounded program (count + 1)).machine.curses <
        (run.steps .bounded program (count + 1)).machine.curses := by
  rw [steps_succ, steps_succ, agree]
  rcases (run.steps .unbounded program count).step_bounded program with equal | overflow
  · exact Or.inl (by rw [equal])
  · exact Or.inr overflow

theorem steps_bounded_of_curses_eq (run : Run) (program : Program) (count : Nat)
    (same_curses : ∀ taken ≤ count, (run.steps .bounded program taken).machine.curses =
      (run.steps .unbounded program taken).machine.curses) :
    run.steps .bounded program count = run.steps .unbounded program count := by
  induction count with
  | zero => rfl
  | succ count ih =>
      have agree := ih fun taken taken_le => same_curses taken (by omega)
      rcases run.steps_succ_bounded program count agree with equal | overflow
      · exact equal
      · have same := same_curses (count + 1) (by omega)
        omega

/--
Runs of one program on one input that have raised the same number of curses after each of
their steps so far have been in the same state after each of them. At the first step after
which they are not in the same state, the bounded run has raised more curses than the
unbounded one.
-/
theorem bounded_eq_unbounded_until_overflow (program : Program) (input : Bytes) (traced : Bool)
    (count : Nat) :
    let bounded := (start input traced).steps .bounded program
    let unbounded := (start input traced).steps .unbounded program
    ((∀ taken ≤ count, (bounded taken).machine.curses = (unbounded taken).machine.curses) →
        ∀ taken ≤ count, bounded taken = unbounded taken) ∧
      ((∀ taken ≤ count, bounded taken = unbounded taken) →
        bounded (count + 1) ≠ unbounded (count + 1) →
          ((unbounded (count + 1)).machine.curses : Int) - (unbounded count).machine.curses <
            (bounded (count + 1)).machine.curses - (bounded count).machine.curses) := by
  intro bounded unbounded
  constructor
  · intro same_curses taken taken_le
    apply steps_bounded_of_curses_eq
    intro earlier earlier_le
    exact same_curses earlier (by omega)
  · intro agree differ
    have agree_before : bounded count = unbounded count := agree count (by omega)
    have overflow : (unbounded (count + 1)).machine.curses <
        (bounded (count + 1)).machine.curses := by
      rcases (start input traced).steps_succ_bounded program count agree_before
        with equal | overflow
      · exact absurd equal differ
      · exact overflow
    rw [agree_before]
    omega

/-- The literal `2 ^ 63` after a small one: the runs part at the second step. -/
theorem bounded_eq_unbounded_until_large_literal :
    let program : Program := ⟨[⟨.push, 1, 7, 0⟩, ⟨.push, 1, 0x8000000000000000, 1⟩], []⟩
    let bounded := (start [] false).steps .bounded program
    let unbounded := (start [] false).steps .unbounded program
    (∀ taken ≤ 1, (bounded taken).machine.curses = (unbounded taken).machine.curses) ∧
      (∀ taken ≤ 1, bounded taken = unbounded taken) ∧ bounded 2 ≠ unbounded 2 ∧
      ((unbounded 2).machine.curses : Int) - (unbounded 1).machine.curses <
        (bounded 2).machine.curses - (bounded 1).machine.curses := by
  intro program bounded unbounded
  have lockstep := bounded_eq_unbounded_until_overflow program [] false 1
  have same_curses : ∀ taken ≤ 1,
      (bounded taken).machine.curses = (unbounded taken).machine.curses := by
    decide
  have differ : bounded 2 ≠ unbounded 2 := by
    decide
  exact ⟨same_curses, lockstep.1 same_curses, differ,
    lockstep.2 (lockstep.1 same_curses) differ⟩

end Run

end SpanMachine
