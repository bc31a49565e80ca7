import SpanMachine.Proofs.Execution.Ending
import SpanMachine.Proofs.Listing.Reading

/-!
# Jumps to labels

A label stands for the number of bodies above its row, and there are no more of them than
instructions in the program. So a jump that names its target leads to an instruction or to the
place behind the last one, also from above the label and also if the label stands at the end of
the listing. The only way to abort a run is a target that is spelled as a numeral.
-/

namespace SpanMachine

namespace Program

/-- No jump of the program leads further than to the place behind the last instruction. -/
def JumpsWithin (program : Program) : Prop :=
  ∀ instruction ∈ program.code,
    instruction.opcode = .jump ∨ instruction.opcode = .jumpUnlessPositive →
      instruction.magnitude.toNat ≤ program.size

end Program

namespace Run

variable {program : Program}

theorem status_step_ne_aborted (within : program.JumpsWithin) {run : Run}
    (not_aborted : ∀ index target, run.status ≠ .aborted index target) (range : Range)
    (index : Nat) (target : UInt64) :
    (run.step range program).2.status ≠ .aborted index target := by
  have outcome := run.outcome range program
  generalize run.step range program = result at outcome
  cases outcome with
  | ended | advanced | jumped => exact not_aborted index target
  | finished | halted => exact Status.noConfusion
  | aborted next jumps beyond =>
      have fetched := (next?_eq_some_iff.mp next).2
      have target_within := within _ (List.mem_of_getElem? fetched) (jumps.imp_right And.left)
      exact absurd target_within (Nat.not_le_of_gt beyond)

theorem status_steps_ne_aborted (within : program.JumpsWithin) {run : Run}
    (not_aborted : ∀ index target, run.status ≠ .aborted index target) (range : Range)
    (count index : Nat) (target : UInt64) :
    (run.steps range program count).status ≠ .aborted index target := by
  induction count generalizing index target with
  | zero => exact not_aborted index target
  | succ count ih =>
      simp only [steps_succ]
      exact status_step_ne_aborted within ih range index target

end Run

namespace Listing

/-- Every jump in the rows spells its target as a name. -/
def NamesTargets (rows : List (List Bytes)) : Prop :=
  ∀ entry ∈ entries rows,
    entry.mnemonic = Opcode.jump.mnemonic ∨
        entry.mnemonic = Opcode.jumpUnlessPositive.mnemonic →
      ∀ word ∈ entry.operands.getLast?, isLabelName word = true

instance (rows : List (List Bytes)) : Decidable (NamesTargets rows) :=
  inferInstanceAs (Decidable (∀ entry ∈ entries rows, _))

theorem entries_rows (text : Bytes) : entries (rows text) = entries ((lines text).map words) := by
  rcases rows_eq_or_append_blank text with same | blank
  · rw [same]
  · rw [blank, entries_append_blank]

end Listing

namespace Statement

open Listing

theorem Holds.exists_reference {statement : Statement} {word : Bytes}
    (holds : statement.Holds .target word) (named : isLabelName word = true) :
    ∃ token, statement.reference = some token := by
  rcases holds with ⟨-, token, refers, -⟩ | ⟨not_name, -⟩
  · exact ⟨token, refers⟩
  · exact absurd named (by simp [not_name])

/-- A statement whose last word is a name in place of a target refers to a label. -/
theorem Spells.exists_reference {entry : Entry} {statement : Statement}
    (spells : Spells entry statement) (target_mem : .target ∈ statement.opcode.operands)
    (named : ∀ word ∈ entry.operands.getLast?, isLabelName word = true) :
    ∃ token, statement.reference = some token := by
  have holds := spells.operands
  generalize entry.operands = words at holds named
  rcases Opcode.operands_of_target_mem target_mem with shape | shape
  all_goals rw [shape] at holds
  · rcases holds with _ | ⟨target_word, ⟨⟩⟩
    exact target_word.exists_reference (named _ rfl)
  · rcases holds with _ | ⟨-, _ | ⟨target_word, ⟨⟩⟩⟩
    exact target_word.exists_reference (named _ rfl)

end Statement

namespace Draft

open Listing

theorem Covers.jumpsWithin {rows : List (List Bytes)} {draft : Draft} {program : Program}
    (covers : Covers rows draft) (named : NamesTargets rows)
    (resolved : draft.toProgram = .ok program) : program.JumpsWithin := by
  rcases toProgram_eq_ok resolved with ⟨-, code⟩
  intro instruction instruction_mem is_jump
  rcases exists_mem_right code.flip instruction_mem with
    ⟨statement, statement_mem, statement_resolved⟩
  rcases exists_mem_right covers.outlines.items.flip statement_mem with
    ⟨entry, entry_mem, spells⟩
  have same_size : (entries rows).length = program.size :=
    covers.outlines.items.length_eq.trans code.length_eq
  rcases Statement.resolve_cases statement_resolved with
    ⟨no_reference, rfl⟩ | ⟨token, label, -, label_mem, -, rfl⟩
  · -- A jump without a reference would have a numeral as its target.
    have target_mem : .target ∈ statement.opcode.operands := by
      rcases is_jump with plain | conditional
      · simp [show statement.opcode = .jump from plain, Opcode.operands]
      · simp [show statement.opcode = .jumpUnlessPositive from conditional, Opcode.operands]
    have spelled_jump : entry.mnemonic = Opcode.jump.mnemonic ∨
        entry.mnemonic = Opcode.jumpUnlessPositive.mnemonic := by
      simp only [← spells.mnemonic]
      exact is_jump.imp (congrArg Opcode.mnemonic) (congrArg Opcode.mnemonic)
    rcases spells.exists_reference target_mem (named entry entry_mem spelled_jump) with
      ⟨token, refers⟩
    rw [no_reference] at refers
    cases refers
  · calc
      (UInt64.ofNat label.index).toNat ≤ label.index := by
        rw [UInt64.toNat_ofNat']
        exact Nat.mod_le _ _
      _ = place rows label.name := covers.outlines.label_places label label_mem
      _ ≤ (entries rows).length := place_le rows label.name
      _ = program.size := same_size

end Draft

namespace Program

open Listing

theorem jumpsWithin_of_ofListing {text : Bytes} {program : Program}
    (read : ofListing text = .ok program) (named : NamesTargets (rows text)) :
    program.JumpsWithin := by
  rcases ofListing_eq_ok_iff.mp read with ⟨draft, added, resolved⟩
  have covers : Draft.Covers ((lines text).map words) draft := Draft.covers_nil.addLines added
  apply covers.jumpsWithin _ resolved
  simpa only [NamesTargets, entries_rows] using named

/--
A program read from a listing whose jumps all name their targets is never aborted: each target
is at most the place behind the last instruction, and no run of the program on any input comes
to an abort after any number of steps.
-/
theorem never_aborted_of_named_targets {text : Bytes} {program : Program}
    (read : ofListing text = .ok program) (named : NamesTargets (rows text)) :
    (∀ instruction ∈ program.code,
      instruction.opcode = .jump ∨ instruction.opcode = .jumpUnlessPositive →
        instruction.magnitude.toNat ≤ program.size) ∧
      ∀ (range : Range) (input : Bytes) (traced : Bool) (count index : Nat) (target : UInt64),
        let run := (Run.start input traced).steps range program count
        run.status ≠ .aborted index target ∧ run.verdict ≠ .aborted index target := by
  have within := jumpsWithin_of_ofListing read named
  refine ⟨within, ?_⟩
  intro range input traced count index target run
  have not_aborted : run.status ≠ .aborted index target := by
    apply Run.status_steps_ne_aborted within
    intro index target
    exact Status.noConfusion
  exact ⟨not_aborted, mt Run.verdict_eq_aborted_iff.mp not_aborted⟩

/-- A jump back, a jump over a row that has a label only, and a label behind everything. -/
theorem never_aborted_of_named_targets_label_at_end :
    let text := ascii "loop: getn 1\n jle 1 done ; leave\nagain:\n jmp loop\ndone:"
    let program : Program :=
      ⟨[⟨.getNumber, 1, 0, 1⟩, ⟨.jumpUnlessPositive, 1, 3, 2⟩, ⟨.jump, 0, 0, 4⟩],
        [⟨0, ascii "loop"⟩, ⟨2, ascii "again"⟩, ⟨3, ascii "done"⟩]⟩
    ofListing text = .ok program ∧ NamesTargets (rows text) ∧
      ∀ (input : Bytes) (count index : Nat) (target : UInt64),
        ((Run.start input false).steps .bounded program count).verdict ≠
          .aborted index target := by
  intro text program
  have read : ofListing text = .ok program := by
    decide +kernel
  have named : NamesTargets (rows text) := by
    decide +kernel
  refine ⟨read, named, ?_⟩
  intro input count index target
  exact ((never_aborted_of_named_targets read named).2 .bounded input false count index target).2

end Program

end SpanMachine
