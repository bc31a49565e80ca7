import SpanMachine.Command.Simulation
import SpanMachine.Proofs.Bytes.Source
import SpanMachine.Proofs.Execution.Steps

/-!
# What simulated invocations do

An invocation is written for any host. On a simulated one, each of its parts has a result that
can be stated without the host: loading reads a listing and leaves the rest of the input, printing
changes one file or the standard output, and a run is a session.

The last of these needs an argument, since a run on a host is relieved of its output and its trace
after every step, while a session keeps both to its end. Nothing that was written before is looked
at again, so a run that has more behind it makes the same steps. What a host is handed piece by
piece is therefore what the session has written in the end.
-/

namespace SpanMachine

namespace Console

/-- The same console, with more output before its own. -/
def precededBy (output : Bytes) (console : Console) : Console :=
  { console with output := output ++ console.output }

theorem write_precededBy (output : Bytes) (console : Console) (text : Bytes) :
    (console.precededBy output).write text = (console.write text).precededBy output := by
  simp only [precededBy, write, List.append_assoc]

theorem readWord_precededBy (output : Bytes) (console : Console) :
    (console.precededBy output).readWord = console.readWord.map id (precededBy output) :=
  rfl

theorem readPoint_precededBy (output : Bytes) (console : Console) :
    (console.precededBy output).readPoint = console.readPoint.map id (precededBy output) :=
  rfl

end Console

namespace Machine

theorem putNumber_precededBy (machine : Machine) (index : Nat) (output : Bytes)
    (console : Console) :
    machine.putNumber index (console.precededBy output) =
      (machine.putNumber index console).map id (Console.precededBy output) := by
  simp only [putNumber, Console.write_precededBy]
  rfl

theorem putPoint_precededBy (machine : Machine) (index : Nat) (output : Bytes) (console : Console) :
    machine.putPoint index (console.precededBy output) =
      (machine.putPoint index console).map id (Console.precededBy output) := by
  simp only [putPoint, Console.writePoint, Console.write_precededBy]
  split
  · rfl
  · split <;> rfl

theorem getNumber_precededBy (machine : Machine) (range : Range) (index : Nat) (output : Bytes)
    (console : Console) :
    machine.getNumber range index (console.precededBy output) =
      (machine.getNumber range index console).map id (Console.precededBy output) := by
  simp only [getNumber, Console.readWord_precededBy, Prod.map_fst, Prod.map_snd, id_eq]
  split <;> rfl

theorem getPoint_precededBy (machine : Machine) (range : Range) (index : Nat) (output : Bytes)
    (console : Console) :
    machine.getPoint range index (console.precededBy output) =
      (machine.getPoint range index console).map id (Console.precededBy output) := by
  simp only [getPoint, Console.readPoint_precededBy, Prod.map_fst, Prod.map_snd, id_eq]
  split <;> rfl

end Machine

namespace Effect

/-- The same effect, with more output before its own. -/
def precededBy (output : Bytes) (effect : Effect) : Effect :=
  { effect with console := effect.console.precededBy output }

end Effect

namespace Instruction

/-- No instruction looks at what was written before it. -/
theorem execute_precededBy (instruction : Instruction) (range : Range) (machine : Machine)
    (output : Bytes) (console : Console) :
    instruction.execute range machine (console.precededBy output) =
      (instruction.execute range machine console).precededBy output := by
  rcases instruction with ⟨opcode, span, magnitude, origin⟩
  cases opcode with
  | putNumber =>
      simp only [execute, Machine.putNumber_precededBy]
      rfl
  | putPoint =>
      simp only [execute, Machine.putPoint_precededBy]
      rfl
  | getNumber =>
      simp only [execute, Machine.getNumber_precededBy]
      rfl
  | getPoint =>
      simp only [execute, Machine.getPoint_precededBy]
      rfl
  | push | combine | enqueue | dequeue | spread | jumpUnlessPositive | jump | halt => rfl

end Instruction

namespace Run

/-- The same run, with more output and a longer trace before its own. -/
def precededBy (output trace : Bytes) (run : Run) : Run :=
  { run with console := run.console.precededBy output, trace := trace ++ run.trace }

/-- A run is what it has handed over before what it has kept. -/
theorem precededBy_quiet (run : Run) : run.quiet.precededBy run.console.output run.trace = run := by
  simp only [precededBy, quiet, Console.precededBy, List.append_nil]

theorem quiet_precededBy (output trace : Bytes) (run : Run) :
    (run.precededBy output trace).quiet = run.quiet :=
  rfl

theorem follow_precededBy (output trace : Bytes) (run : Run) (program : Program) (move : Move) :
    (run.precededBy output trace).follow program move =
      (run.follow program move).map id (precededBy output trace) := by
  cases move with
  | advance => rfl
  | jump target =>
      simp only [follow]
      split <;> rfl
  | halt => rfl

theorem perform_precededBy (output trace : Bytes) (run : Run) (range : Range)
    (instruction : Instruction) :
    (run.precededBy output trace).perform range instruction =
      (run.perform range instruction).map id (precededBy output trace) := by
  simp only [perform, precededBy, Instruction.execute_precededBy, List.append_assoc]
  rfl

theorem step_precededBy (output trace : Bytes) (run : Run) (range : Range) (program : Program) :
    (run.precededBy output trace).step range program =
      (run.step range program).map id (precededBy output trace) := by
  have same_running : (run.precededBy output trace).isRunning = run.isRunning := rfl
  have same_pointer : (run.precededBy output trace).pointer = run.pointer := rfl
  simp only [step, same_running, same_pointer]
  split
  · cases program.code[run.pointer]? with
    | none => rfl
    | some instruction =>
        simp only [perform_precededBy, Prod.map_fst, Prod.map_snd, id_eq]
        exact follow_precededBy output trace _ program _
  · rfl

/-- A change to runs that no step and no end of a session looks at goes through a whole session. -/
theorem session?_of_commutes (change : Run → Run) {range : Range} {program : Program}
    {limit : UInt64}
    (same_over : ∀ run executed,
      isOver (change run) program limit executed = run.isOver program limit executed)
    (same_step : ∀ run, (step (change run) range program).2 = change (run.step range program).2)
    (run : Run) (executed fuel : Nat) :
    session? (change run) range program limit executed fuel =
      (run.session? range program limit executed fuel).map change := by
  induction fuel generalizing run executed with
  | zero => rfl
  | succ fuel ih =>
      simp only [session?, same_over, same_step, ih]
      split <;> rfl

/-- A session goes on in the same way after everything has been handed over. -/
theorem session?_eq_of_quiet (run : Run) (range : Range) (program : Program) (limit : UInt64)
    (executed fuel : Nat) :
    run.session? range program limit executed fuel =
      (run.quiet.session? range program limit executed fuel).map
        (precededBy run.console.output run.trace) := by
  have same_step (other : Run) :
      ((other.precededBy run.console.output run.trace).step range program).2 =
        (other.step range program).2.precededBy run.console.output run.trace := by
    rw [step_precededBy]
    rfl
  rw [← session?_of_commutes (precededBy _ _) (fun _ _ => rfl) same_step, precededBy_quiet]

end Run

namespace World

variable {Files : Type}

/-- The world after it was handed the output and the trace of a run. -/
def handed (world : World Files) (run : Run) : World Files :=
  { world with
    output := world.output ++ run.console.output
    errors := world.errors ++ run.trace }

theorem handed_of_quiet (world : World Files) {run : Run} (quiet : run.quiet = run) :
    world.handed run = world := by
  rw [handed, ← quiet]
  simp only [Run.quiet, List.append_nil]

/-- It does not matter whether a world is handed the beginning before the rest or with it. -/
theorem handed_handed (world : World Files) (earlier later : Run) :
    (world.handed earlier).handed later =
      world.handed (later.precededBy earlier.console.output earlier.trace) := by
  simp only [handed, Run.precededBy, Console.precededBy, List.append_assoc]

end World

namespace Conclusion

variable {Files : Type}

/-- The same conclusion, with more text on the error output before it. -/
def after (errors : Bytes) (conclusion : Conclusion Files) : Conclusion Files :=
  { conclusion with errors := errors ++ conclusion.errors }

end Conclusion

namespace CommandLine

variable {fileSystem : FileSystem}

/-- The text of the listing that the first operand names, if it can be opened. -/
def listing? (commandLine : CommandLine) (input : Bytes) (files : fileSystem.Files) :
    Option Bytes :=
  if commandLine.readsStandardInput then
    some input
  else
    fileSystem.read? files (commandLine.operands.headD [])

/-- The path under which that listing is reported. -/
def listingPath (commandLine : CommandLine) : Bytes :=
  if commandLine.readsStandardInput then
    Command.standardInputPath
  else
    commandLine.operands.headD []

end CommandLine

namespace Command

variable {fileSystem : FileSystem}

/-- The input that loading leaves for the program to read. -/
def remainingInput (commandLine : CommandLine) (input : Bytes) : Bytes :=
  if commandLine.readsStandardInput then [] else input

@[simp]
theorem run_writeErrors (text : Bytes) (fuel : Nat) (world : World fileSystem.Files) :
    ((Simulated.host fileSystem fuel).writeErrors text).run world =
      some ((), { world with errors := world.errors ++ text }) :=
  rfl

theorem run_advance (settings : Settings) (program : Program) (run : Run) (executed bound : Nat)
    (world : World fileSystem.Files) :
    (advance (Simulated.host fileSystem bound) settings program (run, executed)).run world =
      if run.isOver program settings.stepLimit executed then
        some (.inr run, world)
      else
        let next := (run.step settings.range program).2
        some (.inl (next.quiet, executed + 1), world.handed next) := by
  simp only [advance]
  split <;> rfl

/-- What a session hands over step by step is what it has written when it is over. -/
theorem run_iterateWithin_advance (settings : Settings) (program : Program) (run : Run)
    (quiet : run.quiet = run) (executed bound fuel : Nat) (world : World fileSystem.Files) :
    (Simulated.iterateWithin (advance (Simulated.host fileSystem bound) settings program) fuel
        (run, executed)).run world =
      (run.session? settings.range program settings.stepLimit executed fuel).map
        fun final => (final.quiet, world.handed final) := by
  induction fuel generalizing run executed world with
  | zero => rfl
  | succ fuel ih =>
      simp only [Simulated.iterateWithin, StateT.run_bind, run_advance, Run.session?]
      by_cases is_over : run.isOver program settings.stepLimit executed = true
      · simp only [is_over, if_true, Option.map_some, quiet, world.handed_of_quiet quiet]
        rfl
      · let next := (run.step settings.range program).2
        have handed_on (final : Run) : (world.handed next).handed final =
            world.handed (final.precededBy next.console.output next.trace) :=
          world.handed_handed next final
        simp only [is_over, Bool.false_eq_true, if_false]
        calc (Simulated.iterateWithin _ fuel (next.quiet, executed + 1)).run (world.handed next)
            = (next.quiet.session? settings.range program settings.stepLimit (executed + 1)
                fuel).map fun final => (final.quiet, (world.handed next).handed final) :=
              ih next.quiet rfl (executed + 1) (world.handed next)
          _ = (next.session? settings.range program settings.stepLimit (executed + 1) fuel).map
                fun final => (final.quiet, world.handed final) := by
              rw [next.session?_eq_of_quiet, Option.map_map]
              simp only [handed_on, Function.comp_def, Run.quiet_precededBy]

/-- A program that is run leaves no input, writes what a session writes, and changes no file. -/
theorem run_interpret (settings : Settings) (program : Program) (fuel : Nat)
    (world : World fileSystem.Files) :
    (interpret (Simulated.host fileSystem fuel) settings program).run world =
      ((Run.start world.input settings.trace).session? settings.range program settings.stepLimit 0
        fuel).map fun final =>
          (final.exitStatus,
            { input := []
              output := world.output ++ final.console.output
              errors := world.errors ++
                (interpreting settings ++ final.trace ++ final.epilogue program settings)
              files := world.files }) := by
  let ready : World fileSystem.Files :=
    { world with input := [], errors := world.errors ++ interpreting settings }
  have looped := run_iterateWithin_advance settings program
    (Run.start world.input settings.trace) rfl 0 fuel fuel ready
  rw [interpret, StateT.run_bind]
  refine (congrArg (Option.bind · _) looped).trans ?_
  rw [Option.bind_map]
  cases (Run.start world.input settings.trace).session? settings.range program
    settings.stepLimit 0 fuel with
  | none => rfl
  | some final =>
      -- The status and the epilogue of a run do not depend on what it has handed over.
      simp only [← List.append_assoc]
      rfl

theorem run_createFile?_of_none {path : Bytes} {world : World fileSystem.Files}
    (refused : fileSystem.create? world.files path = none) (fuel : Nat) :
    ((Simulated.host fileSystem fuel).createFile? path).run world = some (none, world) := by
  simp [Simulated.host, Simulated.createFile?, refused]

theorem run_createFile?_of_some {path : Bytes} {world : World fileSystem.Files}
    {file : fileSystem.File} {opened : fileSystem.Files}
    (created : fileSystem.create? world.files path = some (file, opened)) (fuel : Nat) :
    ((Simulated.host fileSystem fuel).createFile? path).run world =
      some (some file, { world with files := opened }) := by
  simp [Simulated.host, Simulated.createFile?, created]

/-- A printed program goes to the standard output or to the chosen file, if that can be opened. -/
theorem run_disassemble (settings : Settings) (program : Program) (fuel : Nat)
    (world : World fileSystem.Files) :
    (disassemble (Simulated.host fileSystem fuel) settings program).run world =
      match settings.output with
      | none => some (.completed,
          { world with
            output := world.output ++ program.toListing
            errors := world.errors ++ saving settings })
      | some path =>
        match fileSystem.create? world.files path with
        | some (file, opened) => some (.completed,
            { world with
              errors := world.errors ++ saving settings
              files := fileSystem.append opened file program.toListing })
        | none => some (.refused, { world with errors := world.errors ++ cannotOpen path }) := by
  unfold disassemble
  cases settings.output with
  | none => rfl
  | some path =>
      simp only [StateT.run_bind]
      cases created : fileSystem.create? world.files path with
      | none =>
          rw [run_createFile?_of_none created]
          rfl
      | some target =>
          rw [run_createFile?_of_some created]
          rfl

theorem readSource_ofStream (content path : Bytes) :
    readSource (.ofStream content path) =
      match Program.ofListing content with
      | .ok program => .ok program
      | .error error => .error (error.text path (Listing.lines content)) := by
  have drained : (Source.ofStream content path).drain.1 = content :=
    (Source.honest_ofStream content path).drain_fst
  simp only [readSource, drained]
  rfl

/-- The program that the listing of a command line is read as, or the diagnostic. -/
def loaded (commandLine : CommandLine) (input : Bytes) (files : fileSystem.Files) :
    Except Bytes Program :=
  match commandLine.listing? input files with
  | some text => readSource (.ofStream text commandLine.listingPath)
  | none => .error (cannotOpen commandLine.listingPath)

theorem run_readFile? (path : Bytes) (fuel : Nat) (world : World fileSystem.Files) :
    ((Simulated.host fileSystem fuel).readFile? path).run world =
      some (fileSystem.read? world.files path, world) :=
  rfl

/-- A listing is taken from the standard input or read from its file, which stays as it is. -/
theorem run_openListing (commandLine : CommandLine) (fuel : Nat)
    (world : World fileSystem.Files) :
    (openListing (Simulated.host fileSystem fuel) commandLine).run world =
      some (match commandLine.listing? world.input world.files with
        | some text => .ok (.ofStream text commandLine.listingPath)
        | none => .error (cannotOpen commandLine.listingPath),
        { world with input := remainingInput commandLine world.input }) := by
  simp only [CommandLine.listing?, CommandLine.listingPath, remainingInput]
  unfold openListing
  split
  · rfl
  · simp only [StateT.run_bind, run_readFile?]
    cases fileSystem.read? world.files (commandLine.operands.headD []) <;> rfl

theorem run_load (commandLine : CommandLine) (fuel : Nat) (world : World fileSystem.Files) :
    (load (Simulated.host fileSystem fuel) commandLine).run world =
      some (loaded commandLine world.input world.files,
        { world with
          input := remainingInput commandLine world.input
          errors := world.errors ++ loading commandLine.settings }) := by
  let announced : World fileSystem.Files :=
    { world with errors := world.errors ++ loading commandLine.settings }
  have opened := run_openListing commandLine fuel announced
  rw [load, StateT.run_bind]
  refine (congrArg (Option.bind · _) opened).trans ?_
  simp only [loaded, announced]
  cases commandLine.listing? world.input world.files <;> rfl

/-- A run leaves behind what its session does. -/
theorem interpret?_eq (settings : Settings) (program : Program) (input : Bytes)
    (files : fileSystem.Files) (fuel : Nat) :
    interpret? settings program input files fuel =
      ((Run.start input settings.trace).session? settings.range program settings.stepLimit 0
        fuel).map fun final =>
          ⟨final.exitStatus, final.console.output,
            interpreting settings ++ final.trace ++ final.epilogue program settings, files⟩ := by
  rw [interpret?, Simulated.conclude?, run_interpret, Option.map_map]
  rfl

/-- What is left behind when a program is printed. -/
def disassembled (settings : Settings) (program : Program) (files : fileSystem.Files) :
    Conclusion fileSystem.Files :=
  match settings.output with
  | none => ⟨.completed, program.toListing, saving settings, files⟩
  | some path =>
    match fileSystem.create? files path with
    | some (file, opened) =>
      ⟨.completed, [], saving settings, fileSystem.append opened file program.toListing⟩
    | none => ⟨.refused, [], cannotOpen path, files⟩

/-- What is left behind when a program is printed or run. -/
def carriedOut? (settings : Settings) (program : Program) (input : Bytes)
    (files : fileSystem.Files) (fuel : Nat) : Option (Conclusion fileSystem.Files) :=
  if settings.disassemble then
    some (disassembled settings program files)
  else
    interpret? settings program input files fuel

theorem conclude?_carryOut (settings : Settings) (program : Program) (fuel : Nat)
    (input errors : Bytes) (files : fileSystem.Files) :
    (carryOut (Simulated.host fileSystem fuel) settings program).conclude?
        { input, errors, files } =
      (carriedOut? settings program input files fuel).map (Conclusion.after errors) := by
  rw [carryOut, carriedOut?]
  split
  · rw [Simulated.conclude?, run_disassemble, disassembled]
    cases settings.output with
    | none => rfl
    | some path =>
        simp only
        cases fileSystem.create? files path <;> rfl
  · rw [Simulated.conclude?, run_interpret, interpret?_eq, Option.map_map, Option.map_map]
    rfl

theorem conclude?_refusal (errors output : Bytes) (fuel : Nat) (input : Bytes)
    (files : fileSystem.Files) :
    Simulated.conclude? (do
      (Simulated.host fileSystem fuel).writeErrors errors
      (Simulated.host fileSystem fuel).writeOutput output
      return .refused) { input, files } = some ⟨.refused, output, errors, files⟩ :=
  rfl

/-- What an invocation leaves behind, by the way it takes. -/
theorem perform?_eq (commandLine : CommandLine) (input : Bytes) (files : fileSystem.Files)
    (fuel : Nat) :
    perform? commandLine input files fuel =
      if commandLine.isInvalid then
        some ⟨.refused, usage, commandLine.complaint, files⟩
      else
        match loaded commandLine input files with
        | .error message =>
          some ⟨.refused, [], loading commandLine.settings ++ message, files⟩
        | .ok program =>
          (carriedOut? commandLine.settings program (remainingInput commandLine input) files
            fuel).map (Conclusion.after (loading commandLine.settings)) := by
  rw [perform?, perform]
  split
  · exact conclude?_refusal _ _ fuel input files
  · rw [Simulated.conclude?, StateT.run_bind, run_load]
    cases loaded commandLine input files with
    | error message => simp
    | ok program =>
        exact conclude?_carryOut commandLine.settings program fuel _ _ files

end Command

end SpanMachine
