import Mathlib.Data.List.Induction
import SpanMachine.Program.Basic

/-!
# How programs are built

A program is built by appending instructions, correcting the origin of the last one,
and naming the place after it. The programs that can be built in this way are those
whose labels are in order of index and do not lie beyond the end.
-/

namespace SpanMachine

namespace Program

/-- The programs that can be built. -/
inductive Built : Program → Prop
  | empty : Built {}
  | emit {program : Program} (built : Built program) (opcode : Opcode)
      (span magnitude : UInt64) : Built (program.emit opcode span magnitude)
  | withOrigin {program : Program} (built : Built program) (nonempty : program.code ≠ [])
      (origin : Nat) : Built (program.withOrigin origin)
  | addLabel {program : Program} (built : Built program) (name : Bytes) :
      Built (program.addLabel name)

/-- Labels in order of index, none of them beyond the end. -/
structure Ordered (program : Program) : Prop where
  within : ∀ label ∈ program.labels, label.index ≤ program.size
  sorted : program.labels.Pairwise fun first second => first.index ≤ second.index

theorem size_withOrigin (program : Program) (origin : Nat) :
    (program.withOrigin origin).size = program.size := by
  simp [withOrigin, size]

theorem size_emit (program : Program) (opcode : Opcode) (span magnitude : UInt64) :
    (program.emit opcode span magnitude).size = program.size + 1 := by
  simp [emit, size]

theorem Built.ordered {program : Program} (built : Built program) : Ordered program := by
  induction built with
  | empty =>
      refine ⟨?_, List.Pairwise.nil⟩
      intro label label_mem
      cases label_mem
  | @emit program built opcode span magnitude ih =>
      refine ⟨?_, ih.sorted⟩
      intro label label_mem
      rw [size_emit]
      exact Nat.le_succ_of_le (ih.within label label_mem)
  | @withOrigin program built nonempty origin ih =>
      refine ⟨?_, ih.sorted⟩
      rw [size_withOrigin]
      exact ih.within
  | @addLabel program built name ih =>
      constructor
      · intro label label_mem
        rcases List.mem_append.mp label_mem with label_mem | label_mem
        · exact ih.within label label_mem
        · rw [List.mem_singleton.mp label_mem]
          exact Nat.le_refl _
      · rw [Program.addLabel, List.pairwise_append]
        refine ⟨ih.sorted, List.pairwise_singleton _ _, ?_⟩
        intro first first_mem second second_mem
        rw [List.mem_singleton.mp second_mem]
        exact ih.within first first_mem

theorem withOrigin_append (code : List Instruction) (last : Instruction) (labels : List Label)
    (origin : Nat) :
    Program.withOrigin ⟨code ++ [last], labels⟩ origin =
      ⟨code ++ [{ last with origin := origin }], labels⟩ := by
  have last_index : code.length < (code ++ [last]).length := by
    simp
  simp [Program.withOrigin, size, List.modify_eq_take_cons_drop last_index]

/-- Any instructions can be appended, with any origins. -/
theorem Built.append {program : Program} (built : Built program) (code : List Instruction) :
    Built { program with code := program.code ++ code } := by
  induction code generalizing program with
  | nil => simpa using built
  | cons instruction code ih =>
      have emitted := built.emit instruction.opcode instruction.span instruction.magnitude
      have corrected := emitted.withOrigin (by simp [Program.emit]) instruction.origin
      rw [Program.emit, withOrigin_append] at corrected
      simpa using ih corrected

/-- The labels are given one after another, each as soon as the code reaches its index. -/
theorem Ordered.built {program : Program} (ordered : Ordered program) : Built program := by
  rcases program with ⟨code, labels⟩
  induction labels using List.reverseRecOn generalizing code with
  | nil =>
      have appended := Built.empty.append code
      simpa using appended
  | append_singleton labels label ih =>
      rcases ordered with ⟨within, sorted⟩
      rw [List.pairwise_append] at sorted
      have label_within : label.index ≤ code.length := within label (by simp)
      have reached : (code.take label.index).length = label.index := by
        rw [List.length_take]
        exact Nat.min_eq_left label_within
      have ordered_above : Ordered ⟨code.take label.index, labels⟩ := by
        refine ⟨?_, sorted.1⟩
        intro other other_mem
        rw [size, reached]
        exact sorted.2.2 other other_mem label (List.mem_singleton_self label)
      have labelled := (ih _ ordered_above).addLabel label.name
      rw [Program.addLabel, size, reached] at labelled
      have appended := labelled.append (code.drop label.index)
      simpa using appended

end Program

end SpanMachine
