import SpanMachine.Proofs.Execution.Steps

/-!
# How runs end

The pointer of a run stays inside the program or behind its last instruction. A run is
over as soon as a step says so, and does not change any more.

It completes at a halt, or by stepping from behind the last instruction. It aborts at a
jump that is taken to a place further out. That jump is the last instruction of the
history, and looking at a stack is all that it has done.
-/

namespace SpanMachine

namespace Run

theorem step_fst_iff (run : Run) (range : Range) (program : Program) :
    (run.step range program).1 = true ↔ (run.step range program).2.status = .running := by
  have outcome := run.outcome range program
  generalize run.step range program = result at outcome
  cases outcome with
  | ended stopped => simp [stopped]
  | finished => simp
  | advanced next | jumped next =>
      have running := (next?_eq_some_iff.mp next).1
      simp [perform, running]
  | aborted | halted => simp

theorem pointer_lt_of_next? {run : Run} {program : Program} {instruction : Instruction}
    (next : run.next? program = some instruction) : run.pointer < program.size := by
  rcases next?_eq_some_iff.mp next with ⟨-, fetched⟩
  exact (List.getElem?_eq_some_iff.mp fetched).1

theorem pointer_step_le {run : Run} {program : Program} (within : run.pointer ≤ program.size)
    (range : Range) : (run.step range program).2.pointer ≤ program.size := by
  have outcome := run.outcome range program
  generalize run.step range program = result at outcome
  cases outcome with
  | ended | finished | aborted | halted => exact within
  | advanced next => exact pointer_lt_of_next? next
  | jumped next jumps target_within => exact target_within

theorem pointer_steps_le {run : Run} {program : Program} (within : run.pointer ≤ program.size)
    (range : Range) (count : Nat) : (run.steps range program count).pointer ≤ program.size := by
  induction count with
  | zero => exact within
  | succ count ih =>
      rw [steps_succ]
      exact pointer_step_le ih range

theorem step_of_stopped {run : Run} (stopped : run.status ≠ .running) (range : Range)
    (program : Program) : run.step range program = (false, run) := by
  simp [step, isRunning, stopped]

theorem steps_of_stopped {run : Run} {range : Range} {program : Program} {count later : Nat}
    (stopped : (run.steps range program count).status ≠ .running) (not_before : count ≤ later) :
    run.steps range program later = run.steps range program count := by
  rcases Nat.exists_eq_add_of_le not_before with ⟨extra, rfl⟩
  induction extra with
  | zero => rfl
  | succ extra ih => rw [← Nat.add_assoc, steps_succ, ih (Nat.le_add_right _ _),
      step_of_stopped stopped]

theorem verdict_eq_aborted_iff {run : Run} {index : Nat} {target : UInt64} :
    run.verdict = .aborted index target ↔ run.status = .aborted index target := by
  simp only [verdict]
  cases run.status <;> simp

theorem completed_iff {run : Run} :
    run.status ≠ .running ∧ run.verdict = .completed run.machine.curses ↔
      run.status = .halted := by
  simp only [verdict]
  cases run.status <;> simp

/-- The instruction, executed in a given state, jumps from the index out of the program. -/
structure Escapes (program : Program) (index : Nat) (target : UInt64) (before : Run)
    (instruction : Instruction) : Prop where
  jumps : instruction.Jumps before.machine
  magnitude : instruction.magnitude = target
  beyond : program.size < target.toNat
  pointer : before.pointer = index

/-- An abort leaves the run as it was in front of the jump, except for a look at a stack. -/
structure Untouched (before after : Run) : Prop where
  pointer : after.pointer = before.pointer
  console : after.console = before.console
  machine : Machine.Inspected before.machine after.machine

variable {run : Run} {range : Range} {program : Program} {count : Nat}

theorem step_of_escapes {instruction : Instruction} {index : Nat} {target : UInt64}
    (next : run.next? program = some instruction)
    (escapes : Escapes program index target run instruction) (range : Range) :
    (run.step range program).2.status = .aborted index target := by
  have beyond := escapes.beyond
  rw [← escapes.magnitude] at beyond
  rw [step_of_next? next, Instruction.move_of_jumps escapes.jumps, follow,
    if_neg (Nat.not_le_of_gt beyond), ← escapes.pointer, ← escapes.magnitude]
  rfl

theorem step_of_halt {instruction : Instruction} (next : run.next? program = some instruction)
    (halts : instruction.opcode = .halt) (range : Range) :
    (run.step range program).2.status = .halted ∧
      (run.step range program).2.pointer = run.pointer := by
  rw [step_of_next? next, Instruction.move_of_halt halts]
  exact ⟨rfl, rfl⟩

theorem mem_history_iff {before : Run} {instruction : Instruction} :
    (before, instruction) ∈ run.history range program count ↔
      ∃ earlier < count, run.steps range program earlier = before ∧
        before.next? program = some instruction := by
  induction count with
  | zero => simp [history]
  | succ count ih =>
      rw [history_succ, List.mem_append, ih]
      constructor
      · rintro (⟨earlier, before_count, reached, next⟩ | last)
        · exact ⟨earlier, by omega, reached, next⟩
        · simp only [Option.mem_toList, Option.map_eq_some_iff, Prod.mk.injEq] at last
          rcases last with ⟨_, next, rfl, rfl⟩
          exact ⟨count, by omega, rfl, next⟩
      · rintro ⟨earlier, before_end, reached, next⟩
        rcases Nat.lt_succ_iff_lt_or_eq.mp before_end with before_count | rfl
        · exact Or.inl ⟨earlier, before_count, reached, next⟩
        · right
          rw [reached, next]
          simp

/-- A status other than running that some step has led to is final. -/
theorem status_of_earlier {earlier : Nat} {status : Status} (before_count : earlier < count)
    (reached : ((run.steps range program earlier).step range program).2.status = status)
    (final : status ≠ .running) :
    run.steps range program count = ((run.steps range program earlier).step range program).2 := by
  rw [← steps_succ] at reached ⊢
  exact steps_of_stopped (reached ▸ final) before_count

theorem aborted_of_escapes {before : Run} {instruction : Instruction} {index : Nat}
    {target : UInt64} (executed : (before, instruction) ∈ run.history range program count)
    (escapes : Escapes program index target before instruction) :
    (run.steps range program count).status = .aborted index target := by
  rcases mem_history_iff.mp executed with ⟨earlier, before_count, rfl, next⟩
  have aborted := step_of_escapes next escapes range
  rw [status_of_earlier before_count aborted (by simp)]
  exact aborted

theorem halted_of_halt {before : Run} {instruction : Instruction}
    (executed : (before, instruction) ∈ run.history range program count)
    (halts : instruction.opcode = .halt) :
    (run.steps range program count).status = .halted ∧
      (run.steps range program count).pointer = before.pointer := by
  rcases mem_history_iff.mp executed with ⟨earlier, before_count, rfl, next⟩
  have halted := step_of_halt next halts range
  rw [status_of_earlier before_count halted.1 (by simp)]
  exact halted

theorem halted_of_pointer {earlier : Nat} (before_count : earlier < count)
    (running : (run.steps range program earlier).status = .running)
    (at_end : (run.steps range program earlier).pointer = program.size) :
    (run.steps range program count).status = .halted := by
  have no_next : (run.steps range program earlier).next? program = none :=
    next?_eq_none_iff.mpr fun _ => Nat.le_of_eq at_end.symm
  have halted : ((run.steps range program earlier).step range program).2.status = .halted := by
    rw [step_of_next?_none no_next]
    simp [isRunning, running]
  rw [status_of_earlier before_count halted (by simp)]
  exact halted

/-- An aborted run has executed nothing after the jump that aborted it. -/
theorem last_of_aborted (started : run.status = .running) {index : Nat} {target : UInt64}
    (aborted : (run.steps range program count).status = .aborted index target) :
    ∃ before instruction,
      (run.history range program count).getLast? = some (before, instruction) ∧
        Escapes program index target before instruction ∧
        Untouched before (run.steps range program count) := by
  induction count with
  | zero =>
      rw [steps, started] at aborted
      cases aborted
  | succ count ih =>
      rw [steps_succ] at aborted ⊢
      rw [history_succ]
      generalize run.steps range program count = current at *
      have outcome := current.outcome range program
      generalize current.step range program = result at *
      cases outcome with
      | ended stopped no_next => simpa [no_next] using ih aborted
      | finished => cases aborted
      | advanced next | jumped next =>
          rw [perform, (next?_eq_some_iff.mp next).1] at aborted
          cases aborted
      | @aborted instruction next jumps beyond =>
          cases aborted
          have looked := jumps.inspected range current.console
          refine ⟨current, instruction, by simp [next], ⟨jumps, rfl, beyond, rfl⟩, ?_⟩
          exact ⟨rfl, looked.2, looked.1⟩
      | halted => cases aborted

theorem reason_of_halted (within : run.pointer ≤ program.size) (started : run.status = .running)
    (halted : (run.steps range program count).status = .halted) :
    (∃ before instruction, (before, instruction) ∈ run.history range program count ∧
        instruction.opcode = .halt) ∨
      ∃ earlier < count, (run.steps range program earlier).status = .running ∧
        (run.steps range program earlier).pointer = program.size := by
  induction count with
  | zero =>
      rw [steps, started] at halted
      cases halted
  | succ count ih =>
      have pointer_le := pointer_steps_le within range count
      have outcome := (run.steps range program count).outcome range program
      rw [steps_succ] at halted
      rw [history_succ]
      generalize (run.steps range program count).step range program = result at *
      cases outcome with
      | ended stopped no_next =>
          rcases ih halted with
            ⟨before, instruction, executed, halts⟩ | ⟨earlier, before_count, rest⟩
          · exact Or.inl ⟨before, instruction, List.mem_append_left _ executed, halts⟩
          · exact Or.inr ⟨earlier, by omega, rest⟩
      | finished running no_next =>
          have beyond := next?_eq_none_iff.mp no_next running
          exact Or.inr ⟨count, by omega, running, by omega⟩
      | advanced next | jumped next =>
          rw [perform, (next?_eq_some_iff.mp next).1] at halted
          cases halted
      | aborted => cases halted
      | @halted instruction next halts =>
          left
          refine ⟨run.steps range program count, instruction, ?_, halts⟩
          simp [next]

theorem step_of_no_jump {instruction : Instruction}
    (next : run.next? program = some instruction) (no_jump : ¬instruction.Jumps run.machine)
    (no_halt : instruction.opcode ≠ .halt) (range : Range) :
    (run.step range program).2.status = .running ∧
      (run.step range program).2.pointer = run.pointer + 1 := by
  rw [step_of_next? next, Instruction.move_of_no_jump no_jump no_halt]
  exact ⟨(next?_eq_some_iff.mp next).1, rfl⟩

theorem step_of_jump_to_end {instruction : Instruction}
    (next : run.next? program = some instruction) (jumps : instruction.Jumps run.machine)
    (to_end : instruction.magnitude.toNat = program.size) (range : Range) :
    (run.step range program).2.status = .running ∧
      (run.step range program).2.pointer = program.size := by
  rw [step_of_next? next, Instruction.move_of_jumps jumps, follow,
    if_pos (Nat.le_of_eq to_end)]
  exact ⟨(next?_eq_some_iff.mp next).1, to_end⟩

theorem completed_of_pointer (running : (run.steps range program count).status = .running)
    (at_end : (run.steps range program count).pointer = program.size) :
    (run.steps range program (count + 1)).status = .halted ∧
      (run.steps range program (count + 1)).verdict =
        .completed (run.steps range program count).machine.curses := by
  have halted : (run.steps range program (count + 1)).status = .halted :=
    halted_of_pointer (Nat.lt_succ_self count) running at_end
  have no_next : (run.steps range program count).next? program = none :=
    next?_eq_none_iff.mpr fun _ => Nat.le_of_eq at_end.symm
  have same_machine : (run.steps range program (count + 1)).machine =
      (run.steps range program count).machine := by
    rw [steps_succ, machine_step_of_none no_next]
  refine ⟨halted, ?_⟩
  rw [(completed_iff.mpr halted).2, same_machine]

/--
The course of a run from a fresh machine. In order: the pointer never leaves the program; a
step tells whether the run goes on; a run that is over never changes; it is aborted exactly if
the last executed instruction is a jump out of the program, which has done no more than to look
at a stack; it is completed exactly if it has executed a halt, where the pointer stays, or has
made a step from the place behind the last instruction. A conditional jump that is not taken
goes on whatever its target, and a jump to that place completes the run with the next step.
-/
theorem ending_of_history (range : Range) (program : Program) (input : Bytes) (traced : Bool)
    (count : Nat) :
    let run := (start input traced).steps range program
    let history := (start input traced).history range program
    (run count).pointer ≤ program.size ∧
      (((run count).step range program).1 = true ↔ (run (count + 1)).status = .running) ∧
      ((run count).status ≠ .running → ∀ later ≥ count,
        run later = run count ∧ (run later).step range program = (false, run count)) ∧
      (∀ index target, (run count).verdict = .aborted index target ↔
        ∃ before instruction, (history count).getLast? = some (before, instruction) ∧
          Escapes program index target before instruction) ∧
      (∀ index target before instruction, (run count).verdict = .aborted index target →
        (history count).getLast? = some (before, instruction) → Untouched before (run count)) ∧
      ((run count).status ≠ .running ∧
          (run count).verdict = .completed (run count).machine.curses ↔
        (∃ before instruction, (before, instruction) ∈ history count ∧
            instruction.opcode = .halt) ∨
          ∃ earlier < count, (run earlier).status = .running ∧
            (run earlier).pointer = program.size) ∧
      (∀ before instruction, (before, instruction) ∈ history count →
        instruction.opcode = .halt → (run count).pointer = before.pointer) ∧
      (∀ instruction, (run count).next? program = some instruction →
        instruction.opcode = .jumpUnlessPositive → ¬instruction.Jumps (run count).machine →
          (run (count + 1)).status = .running ∧
            (run (count + 1)).pointer = (run count).pointer + 1) ∧
      ∀ instruction, (run count).next? program = some instruction →
        instruction.Jumps (run count).machine → instruction.magnitude.toNat = program.size →
          (run (count + 1)).status = .running ∧ (run (count + 1)).pointer = program.size ∧
            (run (count + 2)).status = .halted ∧
            (run (count + 2)).verdict = .completed (run (count + 1)).machine.curses := by
  intro run history
  have within : (start input traced).pointer ≤ program.size := Nat.zero_le _
  have next_run (taken : Nat) : run (taken + 1) = ((run taken).step range program).2 :=
    steps_succ _ range program taken
  refine ⟨?_, ?_, ?_, ?_, ?_, ?_, ?_, ?_, ?_⟩
  · exact pointer_steps_le within range count
  · rw [next_run]
    exact step_fst_iff _ range program
  · intro stopped later not_before
    have unchanged : run later = run count := steps_of_stopped stopped not_before
    rw [unchanged]
    exact ⟨rfl, step_of_stopped stopped range program⟩
  · intro index target
    rw [verdict_eq_aborted_iff]
    constructor
    · intro aborted
      rcases last_of_aborted rfl aborted with ⟨before, instruction, last, escapes, -⟩
      exact ⟨before, instruction, last, escapes⟩
    · rintro ⟨before, instruction, last, escapes⟩
      exact aborted_of_escapes (List.mem_of_getLast? last) escapes
  · intro index target before instruction aborted last
    rcases last_of_aborted rfl (verdict_eq_aborted_iff.mp aborted) with
      ⟨before', instruction', last', -, untouched⟩
    have same : before' = before :=
      congrArg Prod.fst (Option.some.inj (last'.symm.trans last))
    exact same ▸ untouched
  · rw [completed_iff]
    constructor
    · exact reason_of_halted within rfl
    · rintro (⟨before, instruction, executed, halts⟩ | ⟨earlier, before_count, running, at_end⟩)
      · exact (halted_of_halt executed halts).1
      · exact halted_of_pointer before_count running at_end
  · intro before instruction executed halts
    exact (halted_of_halt executed halts).2
  · intro instruction next conditional untaken
    rw [next_run]
    exact step_of_no_jump next untaken (by simp [conditional]) range
  · intro instruction next jumps to_end
    have arrived := step_of_jump_to_end next jumps to_end range
    rw [← next_run] at arrived
    exact ⟨arrived.1, arrived.2, completed_of_pointer arrived.1 arrived.2⟩

/-- A jump that is not taken and then one that aborts, a jump to the end, and a halt. -/
theorem ending_of_history_four_ways :
    let aborting : Program :=
      ⟨[⟨.push, 1, 1, 0⟩, ⟨.jumpUnlessPositive, 1, 100, 1⟩, ⟨.jumpUnlessPositive, 2, 9, 2⟩], []⟩
    let run := (start [] false).steps .bounded aborting
    let leaving : Program := ⟨[⟨.jump, 0, 2, 0⟩, ⟨.halt, 0, 0, 1⟩], []⟩
    let left := (start [] false).steps .unbounded leaving
    let halting : Program := ⟨[⟨.halt, 0, 0, 0⟩], []⟩
    let halted := (start [] false).steps .bounded halting
    ((run 2).status = .running ∧ (run 2).pointer = 2) ∧
      ((run 3).verdict = .aborted 2 9 ∧ Untouched (run 2) (run 3) ∧ run 5 = run 3) ∧
      ((left 1).pointer = 2 ∧ (left 2).verdict = .completed 0) ∧
      (halted 1).pointer = 0 := by
  intro aborting run leaving left halting halted
  rcases ending_of_history .bounded aborting [] false 1 with ⟨-, -, -, -, -, -, -, goes_on, -⟩
  rcases ending_of_history .bounded aborting [] false 3 with ⟨-, -, stays, -, untouched, -⟩
  rcases ending_of_history .unbounded leaving [] false 0 with ⟨-, -, -, -, -, -, -, -, completes⟩
  rcases ending_of_history .bounded halting [] false 1 with ⟨-, -, -, -, -, -, rests, -, -⟩
  have untaken := goes_on ⟨.jumpUnlessPositive, 1, 100, 1⟩ (by decide) rfl (by decide)
  have aborted : (run 3).verdict = .aborted 2 9 := by decide
  have last : ((start [] false).history .bounded aborting 3).getLast? =
      some (run 2, ⟨.jumpUnlessPositive, 2, 9, 2⟩) := by
    decide
  have unchanged := (stays (by decide) 5 (by decide)).1
  rcases completes ⟨.jump, 0, 2, 0⟩ (by decide) (by decide) (by decide) with
    ⟨-, arrived, -, completed⟩
  have at_halt := rests (start [] false) ⟨.halt, 0, 0, 0⟩ (by decide) rfl
  exact ⟨untaken, ⟨aborted, untouched 2 9 _ _ aborted last, unchanged⟩, ⟨arrived, completed⟩,
    at_halt⟩

end Run

end SpanMachine
