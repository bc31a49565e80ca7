import SpanMachine.Proofs.Console
import SpanMachine.Proofs.Execution.Steps
import SpanMachine.Proofs.Number.Text

/-!
# What runs write

Only two instructions write. The text of a number is made of ASCII bytes, each a sequence of
its own; and a code point is written only after it has passed the same test that reading makes
on it. So an instruction writes the sequences of some scalar values, nothing but whole ones,
and the output of a run is read back as the code points that its instructions have written.
-/

namespace SpanMachine

namespace Byte

theorem toNat_lt_of_isNumeric {byte : UInt8} (numeric : isNumeric byte = true) :
    byte.toNat < 0x80 := by
  rcases isNumeric_iff.mp numeric with digit | rfl | rfl
  · have bounds := isDigit_iff.mp digit
    omega
  · decide
  · decide

end Byte

namespace Fraction

theorem toNat_lt_of_mem_text {value : Fraction} {byte : UInt8} (byteMem : byte ∈ value.text) :
    byte.toNat < 0x80 :=
  Byte.toNat_lt_of_isNumeric (isNumeric_of_mem_text byteMem)

end Fraction

namespace Machine

theorem output_putNumber (machine : Machine) (index : Nat) (console : Console) :
    (machine.putNumber index console).2.output =
      console.output ++ (machine.store.topOrZero index).text := by
  simp only [putNumber, pop, Stacks.pop_eq, Fraction.value_orCurse, Console.output_write]
  rfl

theorem output_putPoint (machine : Machine) (index : Nat) (console : Console) :
    (machine.putPoint index console).2.output =
      console.output ++
        ((machine.store.peek? index).bind Fraction.toPoint?).toList.flatMap Utf8.encode := by
  simp only [putPoint, pop, Stacks.pop_eq]
  cases machine.store.peek? index with
  | none => simp [Fraction.orCurse, Fraction.curse]
  | some top =>
      cases point : top.toPoint? with
      | none => simp [Fraction.orCurse, point]
      | some value => simp [Fraction.orCurse, point, Console.writePoint]

theorem output_getNumber (machine : Machine) (range : Range) (index : Nat) (console : Console) :
    (machine.getNumber range index console).2.output = console.output := by
  simp only [getNumber]
  split
  · rfl
  · rfl

theorem output_getPoint (machine : Machine) (range : Range) (index : Nat) (console : Console) :
    (machine.getPoint range index console).2.output = console.output := by
  simp only [getPoint]
  split
  · rfl
  · rfl

end Machine

namespace Instruction

/-- The code points that an instruction writes. Those of a number are the bytes of its text. -/
def written (instruction : Instruction) (machine : Machine) : List Nat :=
  let span := instruction.span.toNat
  match instruction.opcode with
  | .putNumber => (machine.store.topOrZero span).text.map UInt8.toNat
  | .putPoint => ((machine.store.peek? span).bind Fraction.toPoint?).toList
  | .push | .combine _ | .enqueue | .dequeue | .spread | .jumpUnlessPositive | .jump
  | .getNumber | .getPoint | .halt => []

theorem isScalar_of_mem_written {instruction : Instruction} {machine : Machine} {point : Nat}
    (pointMem : point ∈ instruction.written machine) : Utf8.IsScalar point := by
  rcases instruction with ⟨opcode, span, magnitude, origin⟩
  cases opcode with
  | putNumber =>
      rcases List.mem_map.mp pointMem with ⟨byte, byteMem, rfl⟩
      have ascii := Fraction.toNat_lt_of_mem_text byteMem
      exact Or.inl (by omega)
  | putPoint =>
      have found := Option.mem_toList.mp pointMem
      rcases Option.bind_eq_some_iff.mp found with ⟨top, -, point_of_top⟩
      exact (Fraction.toPoint?_eq_some_iff.mp point_of_top).2
  | push | combine | enqueue | dequeue | spread | jumpUnlessPositive | jump | getNumber
  | getPoint | halt => cases pointMem

theorem output_execute (instruction : Instruction) (range : Range) (machine : Machine)
    (console : Console) :
    (instruction.execute range machine console).console.output =
      console.output ++ (instruction.written machine).flatMap Utf8.encode := by
  rcases instruction with ⟨opcode, span, magnitude, origin⟩
  cases opcode with
  | putNumber =>
      simp only [written]
      rw [Utf8.flatMap_encode_of_ascii fun byte => Fraction.toNat_lt_of_mem_text]
      exact machine.output_putNumber span.toNat console
  | putPoint => exact machine.output_putPoint span.toNat console
  | getNumber =>
      simp only [written, List.flatMap_nil, List.append_nil]
      exact machine.output_getNumber range span.toNat console
  | getPoint =>
      simp only [written, List.flatMap_nil, List.append_nil]
      exact machine.output_getPoint range span.toNat console
  | push | combine | enqueue | dequeue | spread | jumpUnlessPositive | jump | halt =>
      simp only [written, List.flatMap_nil, List.append_nil]
      rfl

end Instruction

namespace Run

/-- The code points that a number of steps write, in their order. -/
def written (run : Run) (range : Range) (program : Program) (count : Nat) : List Nat :=
  (run.history range program count).flatMap fun (before, instruction) =>
    instruction.written before.machine

theorem output_step (run : Run) (range : Range) (program : Program) :
    (run.step range program).2.console.output =
      run.console.output ++ (run.written range program 1).flatMap Utf8.encode := by
  have outcome := run.outcome range program
  generalize run.step range program = result at outcome
  cases outcome with
  | ended _ no_next | finished _ no_next => simp [written, history, no_next]
  | advanced next | jumped next | aborted next | halted next =>
      simp [written, history, next, perform, Instruction.output_execute]

theorem written_succ (run : Run) (range : Range) (program : Program) (count : Nat) :
    run.written range program (count + 1) =
      run.written range program count ++
        (run.steps range program count).written range program 1 := by
  rw [written, history_succ, List.flatMap_append]
  simp [written, history]

theorem output_steps (run : Run) (range : Range) (program : Program) (count : Nat) :
    (run.steps range program count).console.output =
      run.console.output ++ (run.written range program count).flatMap Utf8.encode := by
  induction count with
  | zero => exact (List.append_nil _).symm
  | succ count ih =>
      rw [steps_succ, output_step, ih, run.written_succ, List.flatMap_append, List.append_assoc]

theorem output_steps_prefix (run : Run) (range : Range) (program : Program) {earlier later : Nat}
    (not_after : earlier ≤ later) :
    (run.steps range program earlier).console.output <+:
      (run.steps range program later).console.output := by
  rcases Nat.exists_eq_add_of_le not_after with ⟨extra, rfl⟩
  clear not_after
  induction extra with
  | zero => exact List.prefix_refl _
  | succ extra ih =>
      rw [← Nat.add_assoc, steps_succ, output_step]
      exact ih.trans (List.prefix_append _ _)

theorem isScalar_of_mem_written {run : Run} {range : Range} {program : Program} {count point : Nat}
    (pointMem : point ∈ run.written range program count) : Utf8.IsScalar point := by
  rcases List.mem_flatMap.mp pointMem with ⟨entry, -, writtenMem⟩
  exact Instruction.isScalar_of_mem_written writtenMem

/--
A run writes nothing but well-formed text. Reading the output of any number of steps back code
point by code point, until it is exhausted, gives the code points that the steps have written
and reports no malformed sequence. What a single instruction appends, in whatever state it is
executed, is the sequences of scalar values and nothing else.
-/
theorem output_decodes (range : Range) (program : Program) (input : Bytes) (traced : Bool)
    (count : Nat) :
    let fresh := start input traced
    let output := (fresh.steps range program count).console.output
    (Console.mk output []).points = (fresh.written range program count).map some ∧
      none ∉ (Console.mk output []).points ∧
      ∀ (instruction : Instruction) (machine : Machine) (console : Console),
        (instruction.execute range machine console).console.output =
            console.output ++ (instruction.written machine).flatMap Utf8.encode ∧
          ∀ point ∈ instruction.written machine, Utf8.IsScalar point := by
  intro fresh output
  have output_eq : output = (fresh.written range program count).flatMap Utf8.encode :=
    fresh.output_steps range program count
  have read_back : (Console.mk output []).points =
      (fresh.written range program count).map some := by
    rw [output_eq]
    apply Console.points_flatMap_encode
    intro point pointMem
    exact isScalar_of_mem_written pointMem
  refine ⟨read_back, ?_, ?_⟩
  · rw [read_back]
    simp
  · intro instruction machine console
    refine ⟨instruction.output_execute range machine console, ?_⟩
    intro point pointMem
    exact Instruction.isScalar_of_mem_written pointMem

/-- A euro sign, what stands in for a malformed byte of the input, a surrogate and a number. -/
theorem output_decodes_past_malformed_input :
    let program : Program :=
      ⟨[⟨.push, 1, 0x20AC, 0⟩, ⟨.putPoint, 1, 0, 1⟩, ⟨.getPoint, 1, 0, 2⟩, ⟨.putPoint, 1, 0, 3⟩,
        ⟨.push, 1, 0xD800, 4⟩, ⟨.putPoint, 1, 0, 5⟩, ⟨.putNumber, 2, 0, 6⟩], []⟩
    let output := ((start [0xFF] false).steps .bounded program 7).console.output
    (Console.mk output []).points = [some 0x20AC, some 0, some 0x30] ∧
      none ∉ (Console.mk output []).points := by
  intro program output
  have written : (start [0xFF] false).written .bounded program 7 = [0x20AC, 0, 0x30] := by
    decide +kernel
  rcases output_decodes .bounded program [0xFF] false 7 with ⟨read_back, well_formed, -⟩
  rw [written] at read_back
  exact ⟨read_back, well_formed⟩

end Run

end SpanMachine
