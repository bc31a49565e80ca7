import SpanMachine.Proofs.Execution.Effect

/-!
# Code points on their way through the machine

A code point that is read and then written again leaves the bytes that it came in. Between
the two it is an integer on a stack, small enough for every range, and the test that it
passes when it is written is the one that it has passed when it was read.
-/

namespace SpanMachine

namespace Machine

theorem putPoint_push {index : Nat} (index_ne_zero : index ≠ 0) {point : Nat}
    (scalar : Utf8.IsScalar point) (machine : Machine) (console : Console) :
    (machine.push index (.ofInt point)).putPoint index console =
      ({ machine with store := machine.store.set index (machine.store.content index) },
        console.writePoint point) := by
  have written : (Fraction.ofInt point).toPoint? = some point :=
    Fraction.toPoint?_eq_some_iff.mpr ⟨rfl, scalar⟩
  simp [putPoint, pop, push, Stacks.pop_push_self index_ne_zero, written]
  rfl

end Machine

namespace Instruction

theorem execute_putPoint_of_getPoint (range : Range) (machine : Machine) (console : Console)
    {reading writing : Instruction} (reads : reading.opcode = .getPoint)
    (writes : writing.opcode = .putPoint) (same_span : writing.span = reading.span)
    (span_ne_zero : reading.span ≠ 0)
    (blameless :
      (reading.execute range machine console).machine.curses = machine.curses) :
    let read := reading.execute range machine console
    let index := reading.span.toNat
    ∃ point, Utf8.IsScalar point ∧ console.unread = Utf8.encode point ++ read.console.unread ∧
      writing.execute range read.machine read.console =
        ⟨.advance,
          { machine with store := machine.store.set index (machine.store.content index) },
          ⟨read.console.unread, console.output ++ Utf8.encode point⟩⟩ := by
  intro read index
  have index_ne_zero : index ≠ 0 := by
    intro index_eq_zero
    exact span_ne_zero (UInt64.toNat_inj.mp index_eq_zero)
  have read_eq : read = .next (machine.getPoint range index console) := by
    simp only [read, execute, reads]
    rfl
  cases found : console.readPoint with
  | mk point? after =>
      cases point? with
      | none =>
          have raised : read.machine.curses = machine.curses + 1 := by
            rw [read_eq, Effect.next, Machine.curses_getPoint, found]
            rfl
          have kept : read.machine.curses = machine.curses := blameless
          omega
      | some point =>
          rcases Console.readPoint_eq_some_iff.mp found with ⟨scalar, consumed, same_output⟩
          rw [read_eq, Machine.getPoint_of_readPoint found]
          refine ⟨point, scalar, consumed, ?_⟩
          simp only [execute, writes, same_span, Effect.next]
          rw [Machine.putPoint_push index_ne_zero scalar, ← same_output]
          rfl

/--
Reading and writing of code points undo each other. A code point is read exactly if it is a
scalar value and its sequence stands in front. From other input the lead byte is taken, with the
longest run of continuation bytes behind it up to the number that it announces. So a point that
is read without a curse onto a stack and written from there comes out in the bytes that it was
read from, and the stacks hold what they held before.
-/
theorem points_echoed :
    (∀ (console after : Console) (point : Nat), console.readPoint = (some point, after) ↔
      Utf8.IsScalar point ∧ console.unread = Utf8.encode point ++ after.unread ∧
        after.output = console.output) ∧
    (∀ (lead : UInt8) (text output : Bytes) (after : Console),
      (Console.mk (lead :: text) output).readPoint = (none, after) →
        after.output = output ∧
        ∃ tail, text = tail ++ after.unread ∧
          (∀ byte ∈ tail, Utf8.isContinuation byte = true) ∧
          tail.length ≤ (Utf8.announced? lead).getD 0 ∧
          (tail.length = (Utf8.announced? lead).getD 0 ∨
            ∀ byte ∈ after.unread.head?, Utf8.isContinuation byte = false) ∧
          (lead :: tail).length ≤ 4) ∧
    ∀ (range : Range) (machine : Machine) (console : Console) (reading writing : Instruction),
      reading.opcode = .getPoint → writing.opcode = .putPoint → writing.span = reading.span →
      reading.span ≠ 0 →
        let read := reading.execute range machine console
        let written := writing.execute range read.machine read.console
        read.machine.curses = machine.curses →
          ∃ consumed, console.unread = consumed ++ read.console.unread ∧
            written.console = ⟨read.console.unread, console.output ++ consumed⟩ ∧
            (∀ index, written.machine.store.content index = machine.store.content index) ∧
            (∀ index ≠ reading.span.toNat,
              written.machine.store.get? index = machine.store.get? index) ∧
            written.machine.queue = machine.queue ∧
            written.machine.curses = machine.curses := by
  refine ⟨?_, ?_, ?_⟩
  · intro console after point
    exact Console.readPoint_eq_some_iff
  · intro lead text output after refused
    have after_eq : after = ⟨(Utf8.decode (lead :: text)).2, output⟩ :=
      (congrArg Prod.snd refused).symm
    rcases Utf8.exists_taken lead text with ⟨tail, text_eq, continued, limited, maximal⟩
    have announced_le := Utf8.announced?_getD_le lead
    rw [after_eq]
    refine ⟨rfl, tail, text_eq, continued, limited, maximal, ?_⟩
    rw [List.length_cons]
    omega
  · intro range machine console reading writing reads writes same_span span_ne_zero read written
      blameless
    rcases execute_putPoint_of_getPoint range machine console reads writes same_span span_ne_zero
      blameless with ⟨point, -, consumed, executed⟩
    have written_eq : written = _ := executed
    rw [written_eq]
    refine ⟨Utf8.encode point, consumed, rfl, ?_, ?_, rfl, rfl⟩
    · intro index
      exact Stacks.content_set_content machine.store _ index
    · intro index other
      exact Stacks.get?_set_of_ne other machine.store _

/-- A euro sign through an absent stack, and an overlong sequence that breaks off. -/
theorem points_echoed_euro_sign :
    let reading : Instruction := ⟨.getPoint, 3, 0, 0⟩
    let writing : Instruction := ⟨.putPoint, 3, 7, 1⟩
    let read := reading.execute .bounded {} ⟨[0xE2, 0x82, 0xAC, 0x0A], []⟩
    let written := writing.execute .bounded read.machine read.console
    (read.machine.curses = 0 ∧
      ∃ consumed, [0xE2, 0x82, 0xAC, 0x0A] = consumed ++ read.console.unread ∧
        written.console = ⟨read.console.unread, consumed⟩ ∧
        ∀ index, written.machine.store.content index = []) ∧
    (Console.mk [0xE0, 0x80, 0x41] []).readPoint = (none, ⟨[0x41], []⟩) ∧
      ∃ tail, [0x80, 0x41] = tail ++ [0x41] ∧
        (∀ byte ∈ tail, Utf8.isContinuation byte = true) ∧ tail.length ≤ 2 := by
  intro reading writing read written
  have blameless : read.machine.curses = 0 := by decide
  have refused : (Console.mk [0xE0, 0x80, 0x41] []).readPoint = (none, ⟨[0x41], []⟩) := by decide
  rcases points_echoed.2.2 .bounded {} ⟨[0xE2, 0x82, 0xAC, 0x0A], []⟩ reading writing rfl rfl rfl
    (by decide) blameless with ⟨consumed, unread, console, content, -⟩
  rcases points_echoed.2.1 _ _ _ _ refused with ⟨-, tail, text, continued, limited, -⟩
  exact ⟨⟨blameless, consumed, unread, console, content⟩, refused, tail, text, continued, limited⟩

end Instruction

end SpanMachine
