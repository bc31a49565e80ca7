import SpanMachine.Proofs.Command.StepLimit
import SpanMachine.Proofs.Execution.Trace

/-!
# Watching an invocation

A command line may ask for a trace and for more or fewer messages. All of this goes to the error
output. Nothing of it is consulted when a listing is loaded, a program is printed or a step is
made, and a session is over at the same step with a trace and without one. So an invocation that
is watched ends exactly if it ends unwatched, and leaves the same behind.
-/

namespace SpanMachine

namespace Run

variable {range : Range} {program : Program} {limit : UInt64}

theorem untraced_session? (run : Run) (executed fuel : Nat) :
    run.untraced.session? range program limit executed fuel =
      (run.session? range program limit executed fuel).map untraced := by
  apply session?_of_commutes untraced
  · intro run executed
    rfl
  · intro run
    rw [untraced_step]
    rfl

theorem session?_unique {run first second : Run} {executed fuel more : Nat}
    (first_over : run.session? range program limit executed fuel = some first)
    (second_over : run.session? range program limit executed more = some second) :
    second = first := by
  rcases exists_stopsAfter first_over with ⟨count, stops, rfl⟩
  rw [stops.session?_eq, Option.ite_none_right_eq_some] at second_over
  exact (Option.some.inj second_over.2).symm

end Run

namespace CommandLine

/-- Command lines that ask for the same, except for a trace and for messages. -/
structure SameTask (first second : CommandLine) : Prop where
  operands : second.operands = first.operands
  settings : ∃ trace verbosity, second.settings = { first.settings with trace, verbosity }

theorem SameTask.readsStandardInput {first second : CommandLine} (same : first.SameTask second) :
    second.readsStandardInput = first.readsStandardInput := by
  simp only [CommandLine.readsStandardInput, same.operands]

theorem SameTask.symm {first second : CommandLine} (same : first.SameTask second) :
    second.SameTask first := by
  rcases same with ⟨same_operands, trace, verbosity, same_settings⟩
  refine ⟨same_operands.symm, first.settings.trace, first.settings.verbosity, ?_⟩
  rw [same_settings]

end CommandLine

namespace Conclusion

variable {Files : Type}

/-- What an invocation leaves behind besides messages. -/
def result (conclusion : Conclusion Files) : ExitStatus × Bytes × Files :=
  (conclusion.status, conclusion.output, conclusion.files)

theorem result_after (errors : Bytes) (conclusion : Conclusion Files) :
    (conclusion.after errors).result = conclusion.result :=
  rfl

end Conclusion

namespace Command

variable {fileSystem : FileSystem} {files : fileSystem.Files} {input : Bytes}
  {first second : CommandLine}

theorem result_disassembled (settings : Settings) (trace : Bool) (verbosity : Nat)
    (program : Program) (files : fileSystem.Files) :
    (disassembled { settings with trace, verbosity } program files).result =
      (disassembled settings program files).result := by
  simp only [disassembled]
  cases settings.output with
  | none => rfl
  | some path =>
      simp only
      split <;> rfl

/-- The result of a run is that of the run without a trace. -/
theorem result_interpret? (settings : Settings) (program : Program) (input : Bytes)
    (files : fileSystem.Files) (fuel : Nat) :
    (interpret? settings program input files fuel).map Conclusion.result =
      ((Run.start input false).session? settings.range program settings.stepLimit 0 fuel).map
        fun final => (final.exitStatus, final.console.output, files) := by
  have start_eq : Run.start input false = (Run.start input settings.trace).untraced := rfl
  rw [start_eq, Run.untraced_session?, interpret?_eq, Option.map_map, Option.map_map]
  rfl

theorem result_carriedOut? (settings : Settings) (trace : Bool) (verbosity : Nat)
    (program : Program) (input : Bytes) (files : fileSystem.Files) (fuel : Nat) :
    (carriedOut? { settings with trace, verbosity } program input files fuel).map
        Conclusion.result =
      (carriedOut? settings program input files fuel).map Conclusion.result := by
  simp only [carriedOut?]
  split
  · exact congrArg some (result_disassembled settings trace verbosity program files)
  · simp only [result_interpret?]

/-- With the same fuel, both command lines come to the same result or to none. -/
theorem result_perform? (same : first.SameTask second) (input : Bytes) (files : fileSystem.Files)
    (fuel : Nat) :
    (perform? second input files fuel).map Conclusion.result =
      (perform? first input files fuel).map Conclusion.result := by
  have same_loaded : loaded second input files = loaded first input files := by
    simp only [loaded, CommandLine.listing?, CommandLine.listingPath, same.readsStandardInput,
      same.operands]
  have same_input : remainingInput second input = remainingInput first input := by
    simp only [remainingInput, same.readsStandardInput]
  rcases same with ⟨same_operands, trace, verbosity, same_settings⟩
  have same_validity : second.isInvalid = first.isInvalid := by
    simp only [CommandLine.isInvalid, same_operands, same_settings]
  simp only [perform?_eq, same_validity, same_loaded, same_input]
  split
  · rfl
  · split
    · rfl
    · simp only [Option.map_map, Function.comp_def, Conclusion.result_after, same_settings]
      exact result_carriedOut? first.settings trace verbosity _ _ files fuel

theorem interpret?_unique {settings : Settings} {program : Program} {fuel more : Nat}
    {one other : Conclusion fileSystem.Files}
    (one_ends : interpret? settings program input files fuel = some one)
    (other_ends : interpret? settings program input files more = some other) :
    other = one := by
  rw [interpret?_eq] at one_ends other_ends
  rcases Option.map_eq_some_iff.mp one_ends with ⟨final, final_over, rfl⟩
  rcases Option.map_eq_some_iff.mp other_ends with ⟨last, last_over, rfl⟩
  cases Run.session?_unique final_over last_over
  rfl

theorem carriedOut?_unique {settings : Settings} {program : Program} {fuel more : Nat}
    {one other : Conclusion fileSystem.Files}
    (one_ends : carriedOut? settings program input files fuel = some one)
    (other_ends : carriedOut? settings program input files more = some other) :
    other = one := by
  rw [carriedOut?] at one_ends other_ends
  split at one_ends
  · rename_i prints
    rw [if_pos prints] at other_ends
    exact Option.some.inj (other_ends.symm.trans one_ends)
  · rename_i runs
    rw [if_neg runs] at other_ends
    exact interpret?_unique one_ends other_ends

/-- How long one is willing to wait decides only whether there is a conclusion. -/
theorem perform?_unique {commandLine : CommandLine} {fuel more : Nat}
    {one other : Conclusion fileSystem.Files}
    (one_ends : perform? commandLine input files fuel = some one)
    (other_ends : perform? commandLine input files more = some other) : other = one := by
  rw [perform?_eq] at one_ends other_ends
  split at one_ends
  · rename_i invalid
    rw [if_pos invalid] at other_ends
    exact Option.some.inj (other_ends.symm.trans one_ends)
  · rename_i valid
    rw [if_neg valid] at other_ends
    cases found : loaded commandLine input files with
    | error message =>
        rw [found] at one_ends other_ends
        exact Option.some.inj (other_ends.symm.trans one_ends)
    | ok program =>
        rw [found] at one_ends other_ends
        rcases Option.map_eq_some_iff.mp one_ends with ⟨inner, carried_out, rfl⟩
        rcases Option.map_eq_some_iff.mp other_ends with ⟨inner_again, carried_out_again, rfl⟩
        rw [carriedOut?_unique carried_out carried_out_again]

theorem exists_same_result (same : first.SameTask second) {fuel : Nat}
    {one : Conclusion fileSystem.Files} (one_ends : perform? first input files fuel = some one) :
    ∃ other, perform? second input files fuel = some other ∧ other.result = one.result := by
  have same_results := result_perform? same input files fuel
  rw [one_ends, Option.map_some] at same_results
  exact Option.map_eq_some_iff.mp same_results

/--
Watching changes nothing. Of two command lines that differ only in trace and verbosity, both come
to an end or none, with the same exit status, the same output and the same files. A traced run
agrees with the plain one in all but the trace after every number of steps. The lines of the
trace are the executed instructions in their order, each as it is printed in a listing, after its
index in brackets with at least four digits.
-/
theorem observation_changes_nothing {first second : CommandLine} (same : first.SameTask second)
    (input : Bytes) (files : fileSystem.Files) :
    ((∃ fuel one, perform? first input files fuel = some one) ↔
        ∃ fuel other, perform? second input files fuel = some other) ∧
      (∀ fuel more one other, perform? first input files fuel = some one →
        perform? second input files more = some other →
          other.status.code = one.status.code ∧ other.output = one.output ∧
            other.files = one.files) ∧
      (∀ (range : Range) (program : Program) (count : Nat),
        let plain := (Run.start input false).steps range program count
        let traced := (Run.start input true).steps range program count
        let executed := (Run.start input true).history range program count
        plain = { traced with traced := false, trace := [] } ∧
          (plain.step range program).1 = (traced.step range program).1 ∧
          plain.verdict = traced.verdict ∧
          traced.trace.splitOn Byte.lineFeed =
            (executed.map fun (before, instruction) =>
              ascii "[" ++ Decimal.padded 4 before.pointer ++ ascii "]" ++ instruction.text) ++
                [[]]) ∧
      ∀ index, Decimal.isNumeral (Decimal.padded 4 index) = true ∧
        Decimal.value (Decimal.padded 4 index) = index ∧
        (Decimal.padded 4 index).length = max 4 (Decimal.ofNat index).length := by
  refine ⟨⟨?_, ?_⟩, ?_, ?_, Decimal.padded_spec 4⟩
  · rintro ⟨fuel, one, one_ends⟩
    rcases exists_same_result same one_ends with ⟨other, other_ends, -⟩
    exact ⟨fuel, other, other_ends⟩
  · rintro ⟨fuel, other, other_ends⟩
    rcases exists_same_result same.symm other_ends with ⟨one, one_ends, -⟩
    exact ⟨fuel, one, one_ends⟩
  · intro fuel more one other one_ends other_ends
    rcases exists_same_result same one_ends with ⟨same_fuel, same_fuel_ends, same_result⟩
    cases perform?_unique same_fuel_ends other_ends
    rcases Prod.mk.inj same_result with ⟨same_status, same_rest⟩
    rcases Prod.mk.inj same_rest with ⟨same_output, same_files⟩
    exact ⟨congrArg ExitStatus.code same_status, same_output, same_files⟩
  · intro range program count plain traced executed
    have plain_eq : plain = traced.untraced :=
      (Run.start input true).untraced_steps range program count
    refine ⟨plain_eq, ?_, ?_, Run.splitOn_trace_steps input range program count⟩
    · rw [plain_eq, Run.untraced_step]
      rfl
    · rw [plain_eq]
      rfl

/-- A loop that writes and is cut off: the trace and the dump are seen on the error output only. -/
theorem observation_changes_nothing_loop :
    let files : Directory.fileSystem.Files :=
      Directory.mk [(ascii "loop", ascii "x: push 1 65\nputc 1\njmp x")]
    let first := CommandLine.ofArguments [ascii "-is4", ascii "loop"]
    let second := CommandLine.ofArguments [ascii "-itVVVs4", ascii "loop"]
    ∃ one other, perform? first [] files 5 = some one ∧
      perform? second [] files 5 = some other ∧ other.errors ≠ one.errors ∧
      other.status.code = one.status.code ∧ other.output = one.output ∧
      other.files = one.files := by
  intro files first second
  have watched : (perform? second [] files 5).map (·.errors) ≠
      (perform? first [] files 5).map (·.errors) := by
    decide +kernel
  have one_some : (perform? first [] files 5).isSome = true := by
    decide +kernel
  have other_some : (perform? second [] files 5).isSome = true := by
    decide +kernel
  have same : first.SameTask second := ⟨by decide +kernel, true, 3, by decide +kernel⟩
  rcases Option.isSome_iff_exists.mp one_some with ⟨one, one_ends⟩
  rcases Option.isSome_iff_exists.mp other_some with ⟨other, other_ends⟩
  rw [one_ends, other_ends] at watched
  refine ⟨one, other, one_ends, other_ends, ?_, ?_⟩
  · intro same_errors
    exact watched (congrArg some same_errors)
  · exact (observation_changes_nothing same [] files).2.1 5 5 one other one_ends other_ends

end Command

end SpanMachine
