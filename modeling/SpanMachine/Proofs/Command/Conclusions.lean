import SpanMachine.Proofs.Command.FileSystem
import SpanMachine.Proofs.Command.StepLimit

/-!
# How invocations end

An invocation ends in one of seven ways. Four of them are refusals: the command line is invalid,
the listing cannot be opened, it cannot be read as a program, or the file to print to cannot be
opened. The other three are a program printed to the standard output, a program printed to a
file, and a session that is over.

Only printing to a file changes the files, and only after everything that could be refused has
succeeded. This holds on any file system. That the file then holds the listing and nothing else,
and that other files are as before, is more than a program can see to: it holds if the file is
plain. The file may be the listing itself, which has been read by then.
-/

namespace SpanMachine

namespace CommandLine

variable {fileSystem : FileSystem}

/-- The listing that the command line names is read as the program. -/
def Loads (commandLine : CommandLine) (input : Bytes) (files : fileSystem.Files)
    (program : Program) : Prop :=
  ∃ text, commandLine.listing? input files = some text ∧ Program.ofListing text = .ok program

theorem interpret_of_valid {commandLine : CommandLine} (valid : commandLine.isInvalid = false) :
    commandLine.settings.interpret = !commandLine.settings.disassemble := by
  simp only [isInvalid, Bool.or_eq_false_iff, beq_eq_false_iff_ne] at valid
  revert valid
  cases commandLine.settings.disassemble <;> cases commandLine.settings.interpret <;> simp

end CommandLine

namespace Run

/-- The exit status of a session is not that of a refusal, and it tells how the run stands. -/
theorem code_exitStatus (run : Run) :
    run.exitStatus.code ≠ 1 ∧ (run.exitStatus.code = 0 ↔ run.status = .halted) ∧
      (run.exitStatus.code = 2 ↔ ∃ index target, run.status = .aborted index target) ∧
      (run.exitStatus.code = 3 ↔ run.status = .running) := by
  simp only [exitStatus]
  cases run.status <;> simp [ExitStatus.code]

theorem StopsAfter.limit_of_running {run : Run} {range : Range} {program : Program}
    {limit : UInt64} {count : Nat} (stops : run.StopsAfter range program limit 0 count)
    (running : (run.steps range program count).status = .running) :
    (run.steps range program count).pointer < program.size ∧ limit ≠ 0 ∧
      count = limit.toNat := by
  rcases isOver_iff.mp stops.is_over with ended | ⟨next, limited, reached⟩
  · exact absurd running ended
  · rw [Nat.zero_add] at reached
    exact ⟨(isSome_next?_iff.mp next).2, limited, reached⟩

end Run

namespace Command

variable {fileSystem : FileSystem} {commandLine : CommandLine} {input : Bytes}
  {files : fileSystem.Files}

theorem loaded_of_none (missing : commandLine.listing? input files = none) :
    loaded commandLine input files = .error (cannotOpen commandLine.listingPath) := by
  rw [loaded, missing]

theorem loaded_of_some {text : Bytes} (found : commandLine.listing? input files = some text) :
    loaded commandLine input files =
      match Program.ofListing text with
      | .ok program => .ok program
      | .error error => .error (error.text commandLine.listingPath (Listing.lines text)) := by
  rw [loaded, found]
  exact readSource_ofStream text commandLine.listingPath

/-- All that an invocation can come to. What it says on the error output is left open. -/
inductive Ending (commandLine : CommandLine) (input : Bytes) (files : fileSystem.Files) :
    Conclusion fileSystem.Files → Prop where
  | invalid (invalid : commandLine.isInvalid = true) (errors : Bytes) :
      Ending commandLine input files ⟨.refused, usage, errors, files⟩
  | unopened (valid : commandLine.isInvalid = false)
      (missing : commandLine.listing? input files = none) (errors : Bytes) :
      Ending commandLine input files ⟨.refused, [], errors, files⟩
  | unread {text : Bytes} {error : ListingError} (valid : commandLine.isInvalid = false)
      (found : commandLine.listing? input files = some text)
      (faulty : Program.ofListing text = .error error) (errors : Bytes) :
      Ending commandLine input files ⟨.refused, [], errors, files⟩
  | printed {program : Program} (valid : commandLine.isInvalid = false)
      (loads : commandLine.Loads input files program)
      (prints : commandLine.settings.disassemble = true)
      (no_path : commandLine.settings.output = none) (errors : Bytes) :
      Ending commandLine input files ⟨.completed, program.toListing, errors, files⟩
  | saved {program : Program} {path : Bytes} {file : fileSystem.File}
      {opened : fileSystem.Files}
      (valid : commandLine.isInvalid = false)
      (loads : commandLine.Loads input files program)
      (prints : commandLine.settings.disassemble = true)
      (to_path : commandLine.settings.output = some path)
      (created : fileSystem.create? files path = some (file, opened)) (errors : Bytes) :
      Ending commandLine input files
        ⟨.completed, [], errors, fileSystem.append opened file program.toListing⟩
  | uncreated {program : Program} {path : Bytes} (valid : commandLine.isInvalid = false)
      (loads : commandLine.Loads input files program)
      (prints : commandLine.settings.disassemble = true)
      (to_path : commandLine.settings.output = some path)
      (no_file : fileSystem.create? files path = none) (errors : Bytes) :
      Ending commandLine input files ⟨.refused, [], errors, files⟩
  | interpreted {program : Program} {final : Run} (valid : commandLine.isInvalid = false)
      (loads : commandLine.Loads input files program)
      (runs : commandLine.settings.disassemble = false)
      (concludes : Concludes commandLine.settings program (remainingInput commandLine input) final)
      (errors : Bytes) :
      Ending commandLine input files
        ⟨final.exitStatus, final.console.output, errors, files⟩

theorem ending_disassembled {program : Program} (valid : commandLine.isInvalid = false)
    (loads : commandLine.Loads input files program)
    (prints : commandLine.settings.disassemble = true) (errors : Bytes) :
    Ending commandLine input files
      ((disassembled commandLine.settings program files).after errors) := by
  rw [disassembled]
  cases destination : commandLine.settings.output with
  | none => exact .printed valid loads prints destination _
  | some path =>
      cases created : fileSystem.create? files path with
      | none =>
          simp only [created]
          exact .uncreated valid loads prints destination created _
      | some target =>
          simp only [created]
          exact .saved valid loads prints destination created _

theorem ending_of_carriedOut? {program : Program} (valid : commandLine.isInvalid = false)
    (loads : commandLine.Loads input files program) {fuel : Nat}
    {conclusion : Conclusion fileSystem.Files}
    (ends : carriedOut? commandLine.settings program (remainingInput commandLine input) files fuel =
      some conclusion)
    (errors : Bytes) : Ending commandLine input files (conclusion.after errors) := by
  rw [carriedOut?] at ends
  split at ends
  · rename_i prints
    cases ends
    exact ending_disassembled valid loads prints errors
  · rename_i runs
    rw [interpret?_eq] at ends
    rcases Option.map_eq_some_iff.mp ends with ⟨final, session_over, rfl⟩
    exact .interpreted valid loads (Bool.eq_false_of_not_eq_true runs) ⟨fuel, session_over⟩ _

/-- An invocation that ends does so in one of the ways listed. -/
theorem ending_of_perform? {fuel : Nat} {conclusion : Conclusion fileSystem.Files}
    (ends : perform? commandLine input files fuel = some conclusion) :
    Ending commandLine input files conclusion := by
  rw [perform?_eq] at ends
  split at ends
  · rename_i invalid
    cases ends
    exact .invalid invalid _
  · rename_i not_invalid
    have valid := Bool.eq_false_of_not_eq_true not_invalid
    cases found : commandLine.listing? input files with
    | none =>
        rw [loaded_of_none found] at ends
        cases ends
        exact .unopened valid found _
    | some text =>
        rw [loaded_of_some found] at ends
        cases read : Program.ofListing text with
        | error error =>
            rw [read] at ends
            cases ends
            exact .unread valid found read _
        | ok program =>
            rw [read] at ends
            rcases Option.map_eq_some_iff.mp ends with ⟨inner, carried_out, rfl⟩
            exact ending_of_carriedOut? valid ⟨text, found, read⟩ carried_out _

/-- There is a reason to refuse what the command line asks for. -/
def Refusable (commandLine : CommandLine) (input : Bytes) (files : fileSystem.Files) : Prop :=
  commandLine.isInvalid = true ∨
    commandLine.listing? input files = none ∨
    (∃ text error, commandLine.listing? input files = some text ∧
      Program.ofListing text = .error error) ∨
    (commandLine.settings.disassemble = true ∧
      ∃ path ∈ commandLine.settings.output, fileSystem.create? files path = none)

theorem not_refusable {program : Program} (valid : commandLine.isInvalid = false)
    (loads : commandLine.Loads input files program)
    (writable : commandLine.settings.disassemble = true →
      ∀ path ∈ commandLine.settings.output, fileSystem.create? files path ≠ none) :
    ¬Refusable commandLine input files := by
  rcases loads with ⟨text, found, read⟩
  rintro (invalid | missing | ⟨other, error, found_other, faulty⟩ |
    ⟨prints, path, to_path, no_file⟩)
  · cases invalid.symm.trans valid
  · cases found.symm.trans missing
  · cases found.symm.trans found_other
    cases read.symm.trans faulty
  · exact writable prints path to_path no_file

/--
The program stands where the command line wants it printed. A file to print to was opened and then
written to, with nothing else in between. If it is plain, it now holds the listing, and all other
files are as before.
-/
structure Printed (settings : Settings) (program : Program) (files : fileSystem.Files)
    (conclusion : Conclusion fileSystem.Files) : Prop where
  code : conclusion.status.code = 0
  to_output : settings.output = none →
    conclusion.output = program.toListing ∧ conclusion.files = files
  to_file : ∀ path ∈ settings.output,
    conclusion.output = [] ∧
      ∃ file opened, fileSystem.create? files path = some (file, opened) ∧
        conclusion.files = fileSystem.append opened file program.toListing ∧
        (fileSystem.Plain file →
          fileSystem.find? conclusion.files path = some file ∧
            fileSystem.content conclusion.files file = program.toListing ∧
            fileSystem.SameExcept file files conclusion.files)

/-- The run of the program was over after a number of steps, and the exit status tells why. -/
structure Reported (settings : Settings) (program : Program) (input : Bytes) (count : Nat)
    (final : Run) (conclusion : Conclusion fileSystem.Files) : Prop where
  reached : final = (Run.start input settings.trace).steps settings.range program count
  stops : (Run.start input settings.trace).StopsAfter settings.range program settings.stepLimit 0
    count
  output : conclusion.output = final.console.output
  completed : conclusion.status.code = 0 ↔ final.status = .halted
  aborted : conclusion.status.code = 2 ↔ ∃ index target, final.status = .aborted index target
  limited : conclusion.status.code = 3 ↔
    final.status = .running ∧ final.pointer < program.size ∧ settings.stepLimit ≠ 0 ∧
      count = settings.stepLimit.toNat

namespace Ending

variable {conclusion : Conclusion fileSystem.Files}

theorem code_eq_one_iff (ending : Ending commandLine input files conclusion) :
    conclusion.status.code = 1 ↔ Refusable commandLine input files := by
  cases ending with
  | invalid invalid => exact iff_of_true rfl (.inl invalid)
  | unopened _ missing => exact iff_of_true rfl (.inr (.inl missing))
  | unread _ found faulty => exact iff_of_true rfl (.inr (.inr (.inl ⟨_, _, found, faulty⟩)))
  | uncreated _ _ prints to_path no_file =>
      exact iff_of_true rfl (.inr (.inr (.inr ⟨prints, _, to_path, no_file⟩)))
  | printed valid loads _ no_path =>
      apply iff_of_false Nat.zero_ne_one
      apply not_refusable valid loads
      intro _ path to_path
      rw [no_path] at to_path
      cases to_path
  | saved valid loads _ to_path created =>
      apply iff_of_false Nat.zero_ne_one
      apply not_refusable valid loads
      intro _ other to_other no_file
      cases to_path.symm.trans to_other
      cases created.symm.trans no_file
  | @interpreted _ final valid loads runs =>
      apply iff_of_false final.code_exitStatus.1
      apply not_refusable valid loads
      intro prints
      cases runs.symm.trans prints

theorem of_refused (ending : Ending commandLine input files conclusion)
    (refused : conclusion.status.code = 1) :
    conclusion.files = files ∧
      conclusion.output = if commandLine.isInvalid then usage else [] := by
  cases ending with
  | invalid invalid =>
      simp only [invalid, if_true, and_self]
  | unopened valid | unread valid | uncreated valid =>
      rw [valid, if_neg Bool.false_ne_true]
      exact ⟨rfl, rfl⟩
  | printed | saved => cases refused
  | @interpreted _ final => exact absurd refused final.code_exitStatus.1

theorem exists_printed (ending : Ending commandLine input files conclusion)
    (prints : commandLine.settings.disassemble = true) (accepted : conclusion.status.code ≠ 1) :
    ∃ program, commandLine.Loads input files program ∧
      Printed commandLine.settings program files conclusion := by
  cases ending with
  | invalid | unopened | unread | uncreated => exact absurd rfl accepted
  | printed _ loads _ no_path =>
      refine ⟨_, loads, rfl, fun _ => ⟨rfl, rfl⟩, ?_⟩
      intro path to_path
      cases no_path.symm.trans to_path
  | saved _ loads _ to_path created =>
      refine ⟨_, loads, rfl, ?_, ?_⟩
      · intro no_path
        cases no_path.symm.trans to_path
      · intro path to_other
        cases to_path.symm.trans to_other
        exact ⟨rfl, _, _, created, rfl, fun plain => plain.written created _⟩
  | interpreted _ _ runs => cases runs.symm.trans prints

theorem files_of_interpreting (ending : Ending commandLine input files conclusion)
    (interprets : commandLine.settings.interpret = true) : conclusion.files = files := by
  cases ending with
  | invalid | unopened | unread | printed | uncreated | interpreted => rfl
  | saved valid _ prints =>
      rw [CommandLine.interpret_of_valid valid, prints] at interprets
      cases interprets

theorem exists_reported (ending : Ending commandLine input files conclusion)
    (interprets : commandLine.settings.interpret = true)
    (accepted : conclusion.status.code ≠ 1) :
    ∃ program count final, commandLine.Loads input files program ∧
      Reported commandLine.settings program (remainingInput commandLine input) count final
        conclusion := by
  cases ending with
  | invalid | unopened | unread | uncreated => exact absurd rfl accepted
  | printed valid _ prints | saved valid _ prints =>
      rw [CommandLine.interpret_of_valid valid, prints] at interprets
      cases interprets
  | @interpreted program final valid loads runs concludes =>
      rcases concludes with ⟨fuel, session_over⟩
      rcases Run.exists_stopsAfter session_over with ⟨count, stops, final_eq⟩
      rcases final.code_exitStatus with ⟨-, halted_iff, aborted_iff, running_iff⟩
      refine ⟨program, count, final, loads, final_eq, stops, rfl, halted_iff, aborted_iff, ?_⟩
      rw [running_iff, final_eq]
      constructor
      · intro running
        exact ⟨running, stops.limit_of_running running⟩
      · exact And.left

end Ending

/--
What the exit status of an invocation says. It is 1 exactly if the command line is invalid, its
listing cannot be opened or read, or the file to print to cannot be opened. Then no file has
changed, and the standard output holds the usage for an invalid command line and nothing
otherwise. A program that is printed goes to the standard output or to the chosen file, which
may be the listing itself, and all other files stay as they are. A program that is run changes
no file, and the status tells whether the run has halted, was aborted, or was cut by the limit.
-/
theorem exit_status_explained {arguments : List Bytes} {input : Bytes}
    {files : fileSystem.Files} {fuel : Nat} {conclusion : Conclusion fileSystem.Files}
    (ends : invoke? arguments input files fuel = some conclusion) :
    let commandLine := CommandLine.ofArguments arguments
    let settings := commandLine.settings
    (conclusion.status.code = 1 ↔ Refusable commandLine input files) ∧
      (conclusion.status.code = 1 → conclusion.files = files ∧
        conclusion.output = if commandLine.isInvalid then usage else []) ∧
      (settings.disassemble = true → conclusion.status.code ≠ 1 →
        ∃ program, commandLine.Loads input files program ∧
          Printed settings program files conclusion) ∧
      (settings.interpret = true → conclusion.files = files) ∧
      (settings.interpret = true → conclusion.status.code ≠ 1 →
        ∃ program count final, commandLine.Loads input files program ∧
          Reported settings program (remainingInput commandLine input) count final
            conclusion) := by
  intro commandLine settings
  have ending : Ending commandLine input files conclusion := ending_of_perform? ends
  exact ⟨ending.code_eq_one_iff, ending.of_refused, ending.exists_printed,
    ending.files_of_interpreting, ending.exists_reported⟩

/--
A listing that is printed over itself, one that cannot be read and therefore does not touch the
file to print to, and a loop that is cut off, with a file to print to that is not looked at.
-/
theorem exit_status_explained_three_ways :
    let files : Directory.fileSystem.Files :=
      Directory.mk [(ascii "bad", ascii "jmp nowhere"), (ascii "loop", ascii "x: jmp x")]
    let content := Directory.fileSystem.content
    (∃ conclusion, invoke? [ascii "-do", ascii "loop", ascii "loop"] [] files 0 =
        some conclusion ∧ conclusion.status.code = 0 ∧
        content conclusion.files (ascii "bad") = ascii "jmp nowhere" ∧
        ∃ program : Program, content conclusion.files (ascii "loop") = program.toListing) ∧
      (∃ conclusion, invoke? [ascii "-do", ascii "loop", ascii "bad"] [] files 0 =
        some conclusion ∧ conclusion.status.code = 1 ∧ conclusion.files = files ∧
        conclusion.output = []) ∧
      ∃ conclusion, invoke? [ascii "-is2", ascii "-obad", ascii "loop"] [] files 3 =
        some conclusion ∧ conclusion.status.code = 3 ∧ conclusion.files = files := by
  intro files content
  have printed_code : (invoke? [ascii "-do", ascii "loop", ascii "loop"] [] files 0).map
      (·.status.code) = some 0 := by
    decide +kernel
  have refused_code : (invoke? [ascii "-do", ascii "loop", ascii "bad"] [] files 0).map
      (·.status.code) = some 1 := by
    decide +kernel
  have limited_code : (invoke? [ascii "-is2", ascii "-obad", ascii "loop"] [] files 3).map
      (·.status.code) = some 3 := by
    decide +kernel
  rcases Option.map_eq_some_iff.mp printed_code with ⟨printed, printed_ends, printed_zero⟩
  rcases Option.map_eq_some_iff.mp refused_code with ⟨refused, refused_ends, refused_one⟩
  rcases Option.map_eq_some_iff.mp limited_code with ⟨limited, limited_ends, limited_three⟩
  rcases exit_status_explained printed_ends with ⟨-, -, prints, -, -⟩
  rcases exit_status_explained refused_ends with ⟨-, unchanged, -, -, -⟩
  rcases exit_status_explained limited_ends with ⟨-, -, -, kept, -⟩
  rcases prints (by decide +kernel) (by simp [printed_zero]) with ⟨program, -, stands⟩
  rcases stands.to_file (ascii "loop") (by decide +kernel) with
    ⟨-, file, opened, created, -, stored⟩
  rcases stored (Directory.plain file) with ⟨-, replaced, others⟩
  rcases Directory.create?_eq_some_iff.mp created with ⟨-, rfl, -⟩
  have other_name : ascii "bad" ≠ ascii "loop" := by
    decide
  have still_there := others.content (ascii "bad") other_name
  have silent : (CommandLine.ofArguments [ascii "-do", ascii "loop", ascii "bad"]).isInvalid =
      false := by
    decide +kernel
  rcases unchanged refused_one with ⟨same_files, same_output⟩
  rw [silent, if_neg Bool.false_ne_true] at same_output
  refine ⟨⟨printed, printed_ends, printed_zero, ?_, program, replaced⟩,
    ⟨refused, refused_ends, refused_one, same_files, same_output⟩,
    ⟨limited, limited_ends, limited_three, kept (by decide +kernel)⟩⟩
  exact still_there.trans (by decide +kernel)

end Command

end SpanMachine
