import SpanMachine.Execution.Run
import SpanMachine.Proofs.Listing.RoundTrip

/-!
# Printed listings keep their meaning

A listing leaves out the operands that an opcode does not spell, and reading it gives the
instructions other origins. Execution looks at neither: instructions that look alike in a
listing have the same effect and leave the same line in a trace. So a program and the one
that is read from its listing go through the same states, step by step.
-/

namespace SpanMachine

namespace Instruction

/-- The two instructions have the same opcode and agree in the operands that it spells out. -/
structure Alike (first second : Instruction) : Prop where
  opcode : second.opcode = first.opcode
  operands : ∀ operand ∈ first.opcode.operands, second.operand operand = first.operand operand

theorem Reread.alike {printed read : Instruction} (reread : Reread printed read) :
    Alike printed read := by
  refine ⟨reread.opcode, ?_⟩
  intro operand spelled
  cases operand with
  | span =>
      change read.span = printed.span
      rw [reread.span, if_pos spelled]
  | magnitude =>
      change read.magnitude = printed.magnitude
      rw [reread.magnitude, if_pos (Or.inl spelled)]
  | target =>
      change read.magnitude = printed.magnitude
      rw [reread.magnitude, if_pos (Or.inr spelled)]

namespace Alike

variable {first second : Instruction}

theorem text_eq (alike : Alike first second) : second.text = first.text := by
  have same_numbers : second.numbers = first.numbers := by
    rw [numbers_eq, numbers_eq, alike.opcode]
    exact List.map_congr_left alike.operands
  rw [text, text, same_numbers, alike.opcode]

/-- No instruction uses an operand that its opcode does not spell out. -/
theorem execute_eq (alike : Alike first second) (range : Range) (machine : Machine)
    (console : Console) :
    second.execute range machine console = first.execute range machine console := by
  have same_opcode := alike.opcode
  have same_span : .span ∈ first.opcode.operands → second.span = first.span :=
    alike.operands .span
  have same_magnitude : .magnitude ∈ first.opcode.operands → second.magnitude = first.magnitude :=
    alike.operands .magnitude
  have same_target : .target ∈ first.opcode.operands → second.magnitude = first.magnitude :=
    alike.operands .target
  cases spelled : first.opcode with
  | push =>
      rw [spelled] at same_opcode same_span same_magnitude
      simp only [execute, same_opcode, spelled, same_span (by decide),
        same_magnitude (by decide)]
  | jumpUnlessPositive =>
      rw [spelled] at same_opcode same_span same_target
      simp only [execute, same_opcode, spelled, same_span (by decide), same_target (by decide)]
  | jump =>
      rw [spelled] at same_opcode same_target
      simp only [execute, same_opcode, spelled, same_target (by decide)]
  | halt =>
      rw [spelled] at same_opcode
      simp only [execute, same_opcode, spelled]
  | combine | enqueue | dequeue | spread | putNumber | putPoint | getNumber | getPoint =>
      rw [spelled] at same_opcode same_span
      simp only [execute, same_opcode, spelled, same_span (by simp [Opcode.operands])]

end Alike

end Instruction

namespace Program

/-- The two programs consist of instructions that look alike, one for one. -/
def Alike (first second : Program) : Prop :=
  List.Forall₂ Instruction.Alike first.code second.code

theorem Alike.size_eq {first second : Program} (alike : Alike first second) :
    second.size = first.size :=
  (List.Forall₂.length_eq alike).symm

theorem Alike.getElem?_cases {first second : Program} (alike : Alike first second)
    (index : Nat) :
    (first.code[index]? = none ∧ second.code[index]? = none) ∨
      ∃ here there, first.code[index]? = some here ∧ second.code[index]? = some there ∧
        here.Alike there := by
  have same_length := List.Forall₂.length_eq alike
  by_cases within : index < first.code.length
  · right
    have within' : index < second.code.length := same_length ▸ within
    refine ⟨_, _, List.getElem?_eq_getElem within, List.getElem?_eq_getElem within', ?_⟩
    exact List.Forall₂.get alike within within'
  · left
    rw [Nat.not_lt] at within
    exact ⟨List.getElem?_eq_none within, List.getElem?_eq_none (same_length ▸ within)⟩

end Program

namespace Run

variable {first second : Program}

theorem follow_eq_of_alike (alike : Program.Alike first second) (run : Run) (move : Move) :
    run.follow second move = run.follow first move := by
  cases move with
  | advance => rfl
  | jump target => rw [follow, follow, alike.size_eq]
  | halt => rfl

theorem step_eq_of_alike (alike : Program.Alike first second) (run : Run) (range : Range) :
    run.step range second = run.step range first := by
  rcases alike.getElem?_cases run.pointer with
    ⟨here, there⟩ | ⟨here, there, fetched, fetched', same⟩
  · simp only [step, here, there]
  · have same_effect := same.execute_eq range run.machine run.console
    have same_line : there.traceLine run.pointer = here.traceLine run.pointer := by
      rw [Instruction.traceLine, same.text_eq, Instruction.traceLine]
    simp only [step, fetched, fetched', perform, same_effect, same_line, follow_eq_of_alike alike]

theorem steps_eq_of_alike (alike : Program.Alike first second) (run : Run) (range : Range)
    (count : Nat) : run.steps range second count = run.steps range first count := by
  induction count generalizing run with
  | zero => rfl
  | succ count ih => rw [steps, steps, step_eq_of_alike alike, ih]

end Run

namespace Program

open Listing

/--
A program that was built and the program that is read from its listing behave alike: on every
input they are in the same state after any number of steps, and their next steps return the
same.
-/
theorem steps_ofListing_toListing {program : Program} (built : Built program)
    (names_formed : ∀ label ∈ program.labels, isLabelName label.name = true)
    (distinct : (program.labels.map Label.name).Nodup) :
    ∃ result, ofListing program.toListing = .ok result ∧
      ∀ (range : Range) (input : Bytes) (traced : Bool) (count : Nat),
        let printed := (Run.start input traced).steps range program count
        let reread := (Run.start input traced).steps range result count
        reread = printed ∧ reread.verdict = printed.verdict ∧
          reread.step range result = printed.step range program := by
  rcases built.exists_reread names_formed distinct with ⟨result, read, -, code⟩
  have alike : Alike program result := code.imp fun _ _ reread => reread.alike
  refine ⟨result, read, ?_⟩
  intro range input traced count printed reread
  have same_run : reread = printed := Run.steps_eq_of_alike alike _ range count
  rw [same_run]
  exact ⟨rfl, rfl, Run.step_eq_of_alike alike printed range⟩

/-- A jump with a span, an output with a magnitude and a halt with both. -/
theorem steps_ofListing_toListing_unused_operands :
    let program := ((((({} : Program).emit .jump 5 1).addLabel (ascii "out")).emit .putNumber 1
      9).withOrigin 40).emit .halt 4 4
    Built program ∧ (∀ label ∈ program.labels, isLabelName label.name = true) ∧
      (program.labels.map Label.name).Nodup ∧
      ∃ result, ofListing program.toListing = .ok result ∧
        (Run.start [] true).steps .bounded result 3 =
          (Run.start [] true).steps .bounded program 3 := by
  intro program
  have built : Built program :=
    ((((Built.empty.emit _ _ _).addLabel _).emit _ _ _).withOrigin (by simp [emit]) _).emit _ _ _
  have names_formed : ∀ label ∈ program.labels, isLabelName label.name = true := by
    decide +kernel
  have distinct : (program.labels.map Label.name).Nodup := by
    decide +kernel
  rcases steps_ofListing_toListing built names_formed distinct with ⟨result, read, same⟩
  exact ⟨built, names_formed, distinct, result, read, (same .bounded [] true 3).1⟩

end Program

end SpanMachine
