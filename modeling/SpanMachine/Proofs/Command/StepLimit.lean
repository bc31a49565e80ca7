import SpanMachine.Command.Directory
import SpanMachine.Proofs.Command.Simulation
import SpanMachine.Proofs.Execution.Ending
import SpanMachine.Proofs.Execution.Executions
import SpanMachine.Proofs.Execution.Output

/-!
# Runs under a step limit

A session goes through the states of the plain run and stops in the first one in which it is
over. Without a limit, this is the first state in which the run has ended. A limit stops it
elsewhere only if there is an instruction to execute after as many steps, that is, if the run
executes more instructions than the limit allows. Otherwise the limit is never noticed, also
if the last instruction that it allows is the last one of the run.
-/

namespace SpanMachine

namespace Run

theorem isOver_iff {run : Run} {program : Program} {limit : UInt64} {executed : Nat} :
    run.isOver program limit executed = true ↔
      run.status ≠ .running ∨
        ((run.next? program).isSome ∧ limit ≠ 0 ∧ executed = limit.toNat) := by
  simp only [isOver, isRunning, isSome_next?_iff]
  by_cases running : run.status = .running
  · simp [running, and_assoc]
  · simp [running]

/-- The session is over after `count` steps and not before, if `executed` were made already. -/
structure StopsAfter (run : Run) (range : Range) (program : Program) (limit : UInt64)
    (executed count : Nat) : Prop where
  is_over : (run.steps range program count).isOver program limit (executed + count) = true
  not_before : ∀ earlier < count,
    (run.steps range program earlier).isOver program limit (executed + earlier) = false

variable {run : Run} {range : Range} {program : Program} {limit : UInt64}

theorem stopsAfter_zero_iff {executed : Nat} :
    StopsAfter run range program limit executed 0 ↔
      run.isOver program limit executed = true := by
  constructor
  · intro stops
    exact stops.is_over
  · intro is_over
    refine ⟨is_over, ?_⟩
    intro earlier earlier_lt
    exact absurd earlier_lt (Nat.not_lt_zero earlier)

theorem stopsAfter_succ_iff {executed count : Nat} :
    StopsAfter run range program limit executed (count + 1) ↔
      run.isOver program limit executed = false ∧
        StopsAfter (run.step range program).2 range program limit (executed + 1) count := by
  have shift (taken : Nat) : executed + 1 + taken = executed + (taken + 1) := by
    omega
  constructor
  · rintro ⟨is_over, not_before⟩
    refine ⟨not_before 0 (Nat.succ_pos count), ?_, ?_⟩
    · rw [shift]
      exact is_over
    · intro earlier earlier_lt
      rw [shift]
      exact not_before (earlier + 1) (Nat.succ_lt_succ earlier_lt)
  · rintro ⟨not_here, is_over, not_before⟩
    rw [shift] at is_over
    refine ⟨is_over, ?_⟩
    intro earlier earlier_lt
    cases earlier with
    | zero => exact not_here
    | succ earlier =>
        rw [← shift]
        exact not_before earlier (Nat.lt_of_succ_lt_succ earlier_lt)

/-- A session takes one unit of fuel more than the steps after which it is over. -/
theorem StopsAfter.session?_eq {executed count : Nat}
    (stops : StopsAfter run range program limit executed count) (fuel : Nat) :
    run.session? range program limit executed fuel =
      if count < fuel then some (run.steps range program count) else none := by
  induction fuel generalizing run executed count with
  | zero => rfl
  | succ fuel ih =>
      cases count with
      | zero =>
          rw [session?, if_pos (stopsAfter_zero_iff.mp stops)]
          rfl
      | succ count =>
          rcases stopsAfter_succ_iff.mp stops with ⟨not_here, later⟩
          rw [session?, not_here, if_neg Bool.false_ne_true, ih later]
          simp only [Nat.succ_lt_succ_iff]
          rfl

theorem exists_stopsAfter {executed fuel : Nat} {final : Run}
    (ended : run.session? range program limit executed fuel = some final) :
    ∃ count, StopsAfter run range program limit executed count ∧
      final = run.steps range program count := by
  induction fuel generalizing run executed with
  | zero => cases ended
  | succ fuel ih =>
      rw [session?] at ended
      split at ended
      · rename_i is_over
        cases ended
        exact ⟨0, stopsAfter_zero_iff.mpr is_over, rfl⟩
      · rename_i goes_on
        rcases ih ended with ⟨count, stops, final_eq⟩
        have not_here := Bool.eq_false_of_not_eq_true goes_on
        exact ⟨count + 1, stopsAfter_succ_iff.mpr ⟨not_here, stops⟩, final_eq⟩

/-- Without a limit that counts, a session stops where the run ends. -/
theorem stopsAfter_of_stopped {count : Nat}
    (stopped : (run.steps range program count).status ≠ .running)
    (running_before : ∀ earlier < count, (run.steps range program earlier).status = .running)
    (enough : limit = 0 ∨ run.executions range program ≤ limit.toNat) :
    StopsAfter run range program limit 0 count := by
  refine ⟨isOver_iff.mpr (.inl stopped), ?_⟩
  intro earlier earlier_lt
  rw [Nat.zero_add, ← Bool.not_eq_true, isOver_iff]
  rintro (ended | ⟨next, limited, reached⟩)
  · exact ended (running_before earlier earlier_lt)
  · rcases enough with unlimited | executions_le
    · exact limited unlimited
    -- An instruction in front after as many steps as the limit would be one too many.
    · rw [reached, ← lt_executions_iff] at next
      exact absurd next (not_lt.mpr executions_le)

/-- A limit below the number of instructions stops a session after as many steps. -/
theorem stopsAfter_of_lt (limited : limit ≠ 0)
    (longer : (limit.toNat : ℕ∞) < run.executions range program) :
    StopsAfter run range program limit 0 limit.toNat := by
  have next := lt_executions_iff.mp longer
  constructor
  · rw [Nat.zero_add, isOver_iff]
    exact Or.inr ⟨next, limited, rfl⟩
  · intro earlier earlier_lt
    have running := (isSome_next?_iff.mp (isSome_next?_of_later next earlier_lt.le)).1
    rw [Nat.zero_add, ← Bool.not_eq_true, isOver_iff]
    rintro (ended | ⟨-, -, reached⟩)
    · exact ended running
    · omega

theorem exists_first_stopped {count : Nat}
    (bounded : run.executions range program ≤ count) :
    ∃ last, (run.steps range program last).status ≠ .running ∧
      ∀ earlier < last, (run.steps range program earlier).status = .running := by
  have stopped : ∃ last, (run.steps range program last).status ≠ .running := by
    -- One step more than instructions: the last one finds the end of the program.
    refine ⟨count + 1, ?_⟩
    rw [steps_succ]
    exact status_step_of_none (executions_le_iff.mp bounded) range
  refine ⟨Nat.find stopped, Nat.find_spec stopped, ?_⟩
  intro earlier earlier_lt
  exact not_not.mp (Nat.find_min stopped earlier_lt)

/-- A session under a greater limit or under none is over no earlier. -/
theorem StopsAfter.le {larger : UInt64} {count : Nat}
    (longer : (limit.toNat : ℕ∞) < run.executions range program)
    (greater : larger = 0 ∨ limit ≤ larger)
    (stops : StopsAfter run range program larger 0 count) : limit.toNat ≤ count := by
  by_contra before
  have next := isSome_next?_of_later (lt_executions_iff.mp longer) (Nat.le_of_not_le before)
  have is_over := stops.is_over
  rw [Nat.zero_add, isOver_iff] at is_over
  rcases is_over with ended | ⟨-, limited, reached⟩
  · exact ended (isSome_next?_iff.mp next).1
  · rcases greater with unlimited | limit_le
    · exact limited unlimited
    · have := UInt64.le_iff_toNat_le.mp limit_le
      omega

theorem session?_succ_of_running (running : run.status = .running) (executed fuel : Nat) :
    run.session? range program 0 executed (fuel + 1) =
      (run.step range program).2.session? range program 0 (executed + 1) fuel := by
  have goes_on : ¬run.isOver program 0 executed = true := by
    simp [isOver_iff, running]
  rw [session?, if_neg goes_on]

/-- A session without a limit makes the steps of a plain run, and looks once more at its end. -/
theorem session?_unlimited (running : run.status = .running) (executed fuel : Nat) :
    run.session? range program 0 executed (fuel + 1) = run.finish? range program fuel := by
  induction fuel generalizing run executed with
  | zero =>
      rw [session?_succ_of_running running]
      rfl
  | succ fuel ih =>
      rw [session?_succ_of_running running, finish?]
      by_cases running_after : (run.step range program).2.status = .running
      · have returned := (run.step_fst_iff range program).mpr running_after
        rw [ih running_after]
        simp only [returned, if_true]
      · have returned := mt (run.step_fst_iff range program).mp running_after
        rw [session?, if_pos (isOver_iff.mpr (.inl running_after))]
        simp only [returned]
        rfl

theorem epilogue_of_stopped {final : Run} (stopped : final.status ≠ .running)
    (settings : Settings) (other : UInt64) :
    final.epilogue program { settings with stepLimit := other } =
      final.epilogue program settings := by
  -- The limit is mentioned only in the remark on a run that was cut.
  simp only [epilogue, remark?]
  cases status_eq : final.status with
  | running => exact absurd status_eq stopped
  | halted => rfl
  | aborted index target => rfl

theorem exitStatus_of_stopped {final : Run} (stopped : final.status ≠ .running) :
    final.exitStatus.code = 0 ∨ final.exitStatus.code = 2 := by
  simp only [exitStatus]
  cases status_eq : final.status with
  | running => exact absurd status_eq stopped
  | halted => exact Or.inl rfl
  | aborted index target => exact Or.inr rfl

end Run

namespace Command

/-- The run of a program under the given settings is over, and this is the state it is left in. -/
def Concludes (settings : Settings) (program : Program) (input : Bytes) (final : Run) : Prop :=
  ∃ fuel, (Run.start input settings.trace).session? settings.range program settings.stepLimit 0
    fuel = some final

variable {settings : Settings} {program : Program} {input : Bytes}

theorem concludes_iff (settings : Settings) {count : Nat}
    (stops : (Run.start input settings.trace).StopsAfter settings.range program
      settings.stepLimit 0 count) (final : Run) :
    Concludes settings program input final ↔
      final = (Run.start input settings.trace).steps settings.range program count := by
  constructor
  · rintro ⟨fuel, ended⟩
    rw [stops.session?_eq, Option.ite_none_right_eq_some] at ended
    exact (Option.some.inj ended.2).symm
  · rintro rfl
    refine ⟨count + 1, ?_⟩
    rw [stops.session?_eq, if_pos (Nat.lt_succ_self count)]

theorem exists_interpret? {final : Run} (concludes : Concludes settings program input final)
    {fileSystem : FileSystem} (files : fileSystem.Files) :
    ∃ fuel, interpret? settings program input files fuel =
      some ⟨final.exitStatus, final.console.output,
        interpreting settings ++ final.trace ++ final.epilogue program settings, files⟩ := by
  rcases concludes with ⟨fuel, ended⟩
  refine ⟨fuel, ?_⟩
  rw [interpret?_eq, ended]
  rfl

/--
A step limit does nothing but cut a run off. A run that executes no more instructions than the
limit ends in the same state, and the program with the same conclusion, as without a limit. A
run that executes more is left after exactly as many instructions as the limit, in front of
another one, with an output that a greater limit or none can only prolong. Without a limit a
session is a run to its end.
-/
theorem stepLimit_only_cuts (settings : Settings) (program : Program) (input : Bytes)
    {fileSystem : FileSystem} (files : fileSystem.Files) (limited : settings.stepLimit ≠ 0) :
    let fresh := Run.start input settings.trace
    let run := fresh.steps settings.range program
    let limit := settings.stepLimit.toNat
    let total := fresh.executions settings.range program
    let unlimited : Settings := { settings with stepLimit := 0 }
    (total ≤ limit →
      ∃ final, (∀ other, Concludes settings program input other ↔ other = final) ∧
        (∀ other, Concludes unlimited program input other ↔ other = final) ∧
        (final.exitStatus.code = 0 ∨ final.exitStatus.code = 2) ∧
        ∃ conclusion : Conclusion fileSystem.Files,
          (∃ fuel, interpret? settings program input files fuel = some conclusion) ∧
            (∃ fuel, interpret? unlimited program input files fuel = some conclusion) ∧
            conclusion.status = final.exitStatus ∧
            conclusion.output = final.console.output) ∧
      (limit < total →
        (∀ other, Concludes settings program input other ↔ other = run limit) ∧
          (fresh.history settings.range program limit).length = limit ∧
          (run limit).pointer < program.size ∧
          (∃ fuel conclusion,
            interpret? settings program input files fuel = some conclusion ∧
              conclusion.status.code = 3 ∧ conclusion.output = (run limit).console.output) ∧
          (∀ later ≥ limit, (run limit).console.output <+: (run later).console.output) ∧
          ∀ larger final, larger = 0 ∨ settings.stepLimit ≤ larger →
            Concludes { settings with stepLimit := larger } program input final →
              (run limit).console.output <+: final.console.output) ∧
      ∀ fuel, fresh.session? settings.range program 0 0 (fuel + 1) =
        fresh.finish? settings.range program fuel := by
  intro fresh run limit total unlimited
  refine ⟨?_, ?_, ?_⟩
  · intro enough
    rcases Run.exists_first_stopped enough with ⟨last, stopped, running_before⟩
    have settings_conclude := concludes_iff settings
      (Run.stopsAfter_of_stopped stopped running_before (.inr enough))
    have unlimited_conclude := concludes_iff unlimited
      (Run.stopsAfter_of_stopped stopped running_before (.inl rfl))
    refine ⟨run last, settings_conclude, unlimited_conclude, Run.exitStatus_of_stopped stopped, ?_⟩
    have unlimited_ends := exists_interpret? ((unlimited_conclude _).mpr rfl) files
    rw [Run.epilogue_of_stopped stopped] at unlimited_ends
    exact ⟨_, exists_interpret? ((settings_conclude _).mpr rfl) files, unlimited_ends, rfl, rfl⟩
  · intro longer
    have conclude := concludes_iff settings (Run.stopsAfter_of_lt limited longer)
    have next := Run.lt_executions_iff.mp longer
    rcases Run.isSome_next?_iff.mp next with ⟨running, inside⟩
    refine ⟨conclude, ?_, inside, ?_, ?_, ?_⟩
    · apply Run.length_history_of_isSome
      intro earlier earlier_lt
      exact Run.isSome_next?_of_later next earlier_lt.le
    · rcases exists_interpret? ((conclude _).mpr rfl) files with ⟨fuel, ended⟩
      refine ⟨fuel, _, ended, ?_, rfl⟩
      have out_of_steps : (run limit).exitStatus = .outOfSteps := by
        rw [Run.exitStatus, running]
      exact congrArg ExitStatus.code out_of_steps
    · intro later not_before
      exact fresh.output_steps_prefix settings.range program not_before
    · rintro larger final greater ⟨fuel, ended⟩
      rcases Run.exists_stopsAfter ended with ⟨count, stops, rfl⟩
      exact fresh.output_steps_prefix settings.range program (stops.le longer greater)
  · intro fuel
    exact Run.session?_unlimited rfl 0 fuel

/--
A walk off the end, a halt and a jump out of the program, each with the last instruction that
the limit allows, and a loop that is cut in front of its second output.
-/
theorem stepLimit_only_cuts_at_the_limit :
    let settings (limit : UInt64) : Settings := { stepLimit := limit }
    let walking : Program := ⟨[⟨.push, 1, 7, 0⟩, ⟨.putNumber, 1, 0, 1⟩], []⟩
    let halting : Program := ⟨[⟨.halt, 0, 0, 0⟩], []⟩
    let leaving : Program := ⟨[⟨.jump, 0, 9, 0⟩], []⟩
    let looping : Program :=
      ⟨[⟨.push, 1, 7, 0⟩, ⟨.putNumber, 1, 0, 1⟩, ⟨.jump, 0, 0, 2⟩], []⟩
    let fresh := Run.start [] false
    (fresh.executions .bounded walking ≤ 2 ∧
        ∃ final, Concludes (settings 2) walking [] final ∧
          Concludes (settings 0) walking [] final) ∧
      (fresh.executions .bounded halting ≤ 1 ∧
        ∃ final, Concludes (settings 1) halting [] final ∧
          Concludes (settings 0) halting [] final) ∧
      (fresh.executions .bounded leaving ≤ 1 ∧
        ∃ final, Concludes (settings 1) leaving [] final ∧
          Concludes (settings 0) leaving [] final) ∧
      4 < fresh.executions .bounded looping ∧
      Concludes (settings 4) looping [] (fresh.steps .bounded looping 4) ∧
      (fresh.history .bounded looping 4).length = 4 ∧
      ∀ later ≥ 4, (fresh.steps .bounded looping 4).console.output <+:
        (fresh.steps .bounded looping later).console.output := by
  intro settings walking halting leaving looping fresh
  let files : Directory.fileSystem.Files := Directory.mk []
  have walks : fresh.executions .bounded walking ≤ 2 := Run.executions_le_iff.mpr (by decide)
  have halts : fresh.executions .bounded halting ≤ 1 := Run.executions_le_iff.mpr (by decide)
  have leaves : fresh.executions .bounded leaving ≤ 1 := Run.executions_le_iff.mpr (by decide)
  have loops : 4 < fresh.executions .bounded looping := Run.lt_executions_iff.mpr (by decide)
  rcases (stepLimit_only_cuts (settings 2) walking [] files (by decide)).1 walks with
    ⟨walked, walk_limited, walk_unlimited, -⟩
  rcases (stepLimit_only_cuts (settings 1) halting [] files (by decide)).1 halts with
    ⟨halted, halt_limited, halt_unlimited, -⟩
  rcases (stepLimit_only_cuts (settings 1) leaving [] files (by decide)).1 leaves with
    ⟨left, leave_limited, leave_unlimited, -⟩
  rcases (stepLimit_only_cuts (settings 4) looping [] files (by decide)).2.1 loops with
    ⟨cut, executed, -, -, prolonged, -⟩
  refine ⟨⟨walks, walked, ?_, ?_⟩, ⟨halts, halted, ?_, ?_⟩, ⟨leaves, left, ?_, ?_⟩, loops, ?_,
    executed, prolonged⟩
  · exact (walk_limited walked).mpr rfl
  · exact (walk_unlimited walked).mpr rfl
  · exact (halt_limited halted).mpr rfl
  · exact (halt_unlimited halted).mpr rfl
  · exact (leave_limited left).mpr rfl
  · exact (leave_unlimited left).mpr rfl
  · exact (cut _).mpr rfl

end Command

end SpanMachine
