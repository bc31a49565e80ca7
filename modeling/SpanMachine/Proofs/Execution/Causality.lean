import SpanMachine.Proofs.Console
import SpanMachine.Proofs.Execution.Steps

/-!
# Runs on inputs that begin alike

Reading looks one byte ahead and no further. A word ends where whitespace is seen, and a
sequence breaks off where a byte is seen that does not continue it; the byte that was seen is
not taken. So a read that leaves at least one byte of some text in front would have done the
same with anything else behind that text.

Two runs on inputs with a common beginning are therefore in the same state, except for the
bytes they have not read, as long as the common beginning is not used up. They are compared as
a pair: the relation is kept by a console that reads or writes, by an instruction, by a step
and by any number of steps.
-/

namespace SpanMachine

namespace Bytes

variable {accepts : UInt8 → Bool} {shared first : Bytes}

theorem dropWhile_ne_nil_of_length_lt
    (left_over : first.length < ((shared ++ first).dropWhile accepts).length) :
    shared.dropWhile accepts ≠ [] := by
  intro used_up
  have shorter := (List.dropWhile_suffix accepts (l := first)).length_le
  simp only [List.dropWhile_append, used_up, List.isEmpty_nil, if_true] at left_over
  omega

theorem dropWhile_append_of_ne_nil (stops : shared.dropWhile accepts ≠ []) (more : Bytes) :
    (shared ++ more).dropWhile accepts = shared.dropWhile accepts ++ more := by
  simp [List.dropWhile_append, stops]

theorem takeWhile_append_of_ne_nil (stops : shared.dropWhile accepts ≠ []) (more : Bytes) :
    (shared ++ more).takeWhile accepts = shared.takeWhile accepts := by
  have shorter : (shared.takeWhile accepts).length ≠ shared.length := by
    intro same_length
    have whole := congrArg List.length
      (List.takeWhile_append_dropWhile (p := accepts) (l := shared))
    have something := List.length_pos_iff.mpr stops
    simp only [List.length_append] at whole
    omega
  simp [List.takeWhile_append, shorter]

end Bytes

namespace Utf8

variable {shared first : Bytes}

theorem gather_append {count bits : Nat}
    (left_over : first.length < (gather count bits (shared ++ first)).2.length) (second : Bytes) :
    ∃ bits? rest, gather count bits (shared ++ first) = (bits?, rest ++ first) ∧
      gather count bits (shared ++ second) = (bits?, rest ++ second) := by
  induction count generalizing bits shared with
  | zero => exact ⟨some bits, shared, rfl, rfl⟩
  | succ count ih =>
      cases shared with
      | nil =>
          have shorter := (gather_snd_suffix (count + 1) bits first).length_le
          exact absurd left_over (Nat.not_lt_of_le shorter)
      | cons byte rest =>
          simp only [List.cons_append, gather] at left_over ⊢
          by_cases continued : isContinuation byte = true
          · simp only [continued, if_true] at left_over ⊢
            exact ih left_over
          · simp only [continued] at left_over ⊢
            exact ⟨none, byte :: rest, rfl, rfl⟩

theorem decode_append (left_over : first.length < (decode (shared ++ first)).2.length)
    (second : Bytes) :
    ∃ point? rest, decode (shared ++ first) = (point?, rest ++ first) ∧
      decode (shared ++ second) = (point?, rest ++ second) := by
  cases shared with
  | nil =>
      have shorter := (decode_snd_suffix first).length_le
      exact absurd left_over (Nat.not_lt_of_le shorter)
  | cons lead tail =>
      simp only [List.cons_append, decode] at left_over ⊢
      cases announced : announced? lead with
      | none => exact ⟨none, tail, rfl, rfl⟩
      | some count =>
          simp only [announced] at left_over
          rcases gather_append left_over second with ⟨bits?, rest, one, other⟩
          simp only [one, other]
          exact ⟨_, rest, rfl, rfl⟩

end Utf8

namespace Console

/-- The same console in front of two inputs that begin alike. -/
structure Fork (first second : Bytes) (one other : Console) : Prop where
  unread : ∃ shared, one.unread = shared ++ first ∧ other.unread = shared ++ second
  output : other.output = one.output

namespace Fork

variable {first second : Bytes} {one other : Console}

theorem write (forked : Fork first second one other) (text : Bytes) :
    Fork first second (one.write text) (other.write text) := by
  refine ⟨forked.unread, ?_⟩
  simp only [output_write, forked.output]

theorem readWord (forked : Fork first second one other)
    (left_over : first.length < one.readWord.2.unread.length) :
    other.readWord.1 = one.readWord.1 ∧ Fork first second one.readWord.2 other.readWord.2 := by
  rcases forked.unread with ⟨shared, one_unread, other_unread⟩
  simp only [Console.readWord, one_unread, other_unread] at left_over ⊢
  -- If the whitespace were all there is in common, nothing of it would be left over.
  have word_starts : shared.dropWhile Byte.isSpace ≠ [] := by
    apply Bytes.dropWhile_ne_nil_of_length_lt
    exact left_over.trans_le (List.dropWhile_suffix _).length_le
  simp only [Bytes.dropWhile_append_of_ne_nil word_starts] at left_over ⊢
  have word_ends := Bytes.dropWhile_ne_nil_of_length_lt left_over
  simp only [Bytes.takeWhile_append_of_ne_nil word_ends,
    Bytes.dropWhile_append_of_ne_nil word_ends, true_and]
  exact ⟨⟨_, rfl, rfl⟩, forked.output⟩

theorem readPoint (forked : Fork first second one other)
    (left_over : first.length < one.readPoint.2.unread.length) :
    other.readPoint.1 = one.readPoint.1 ∧ Fork first second one.readPoint.2 other.readPoint.2 := by
  rcases forked.unread with ⟨shared, one_unread, other_unread⟩
  simp only [Console.readPoint, one_unread, other_unread] at left_over ⊢
  rcases Utf8.decode_append left_over second with ⟨point?, rest, one_decoded, other_decoded⟩
  simp only [one_decoded, other_decoded, true_and]
  exact ⟨⟨rest, rfl, rfl⟩, forked.output⟩

end Fork

end Console

namespace Machine

theorem console_getNumber (machine : Machine) (range : Range) (index : Nat) (console : Console) :
    (machine.getNumber range index console).2 = console.readWord.2 := by
  simp only [getNumber]
  split <;> rfl

theorem console_getPoint (machine : Machine) (range : Range) (index : Nat) (console : Console) :
    (machine.getPoint range index console).2 = console.readPoint.2 := by
  simp only [getPoint]
  split <;> rfl

theorem unread_putPoint (machine : Machine) (index : Nat) (console : Console) :
    (machine.putPoint index console).2.unread = console.unread := by
  simp only [putPoint]
  split
  · rfl
  · split <;> rfl

variable {first second : Bytes} {one other : Console}

theorem putPoint_of_fork (forked : Console.Fork first second one other) (machine : Machine)
    (index : Nat) :
    (machine.putPoint index other).1 = (machine.putPoint index one).1 ∧
      Console.Fork first second (machine.putPoint index one).2
        (machine.putPoint index other).2 := by
  simp only [putPoint]
  split
  · exact ⟨rfl, forked⟩
  · split
    · exact ⟨rfl, forked.write _⟩
    · exact ⟨rfl, forked⟩

theorem getNumber_of_fork (forked : Console.Fork first second one other) (machine : Machine)
    (range : Range) (index : Nat)
    (left_over : first.length < (machine.getNumber range index one).2.unread.length) :
    (machine.getNumber range index other).1 = (machine.getNumber range index one).1 ∧
      Console.Fork first second (machine.getNumber range index one).2
        (machine.getNumber range index other).2 := by
  simp only [console_getNumber] at left_over ⊢
  rcases forked.readWord left_over with ⟨same_word, read⟩
  refine ⟨?_, read⟩
  simp only [getNumber, same_word]
  cases one.readWord.1.bind (Numeral.read? range) <;> rfl

theorem getPoint_of_fork (forked : Console.Fork first second one other) (machine : Machine)
    (range : Range) (index : Nat)
    (left_over : first.length < (machine.getPoint range index one).2.unread.length) :
    (machine.getPoint range index other).1 = (machine.getPoint range index one).1 ∧
      Console.Fork first second (machine.getPoint range index one).2
        (machine.getPoint range index other).2 := by
  simp only [console_getPoint] at left_over ⊢
  rcases forked.readPoint left_over with ⟨same_point, read⟩
  refine ⟨?_, read⟩
  simp only [getPoint, same_point]
  split <;> rfl

end Machine

namespace Instruction

theorem unread_execute_suffix (instruction : Instruction) (range : Range) (machine : Machine)
    (console : Console) :
    (instruction.execute range machine console).console.unread <:+ console.unread := by
  rcases instruction with ⟨opcode, span, magnitude, origin⟩
  cases opcode with
  | getNumber =>
      simp only [execute, Effect.next, Machine.console_getNumber]
      exact console.unread_readWord_suffix
  | getPoint =>
      simp only [execute, Effect.next, Machine.console_getPoint]
      exact console.unread_readPoint_suffix
  | putPoint =>
      simp only [execute, Effect.next, Machine.unread_putPoint]
      exact List.suffix_refl _
  | push | combine | enqueue | dequeue | spread | jumpUnlessPositive | jump | putNumber | halt =>
      exact List.suffix_refl _

/-- One instruction in front of two inputs, of whose common beginning it leaves something. -/
theorem execute_of_fork {first second : Bytes} {one other : Console}
    (forked : Console.Fork first second one other) (instruction : Instruction) (range : Range)
    (machine : Machine)
    (left_over : first.length < (instruction.execute range machine one).console.unread.length) :
    (instruction.execute range machine other).move =
        (instruction.execute range machine one).move ∧
      (instruction.execute range machine other).machine =
        (instruction.execute range machine one).machine ∧
      Console.Fork first second (instruction.execute range machine one).console
        (instruction.execute range machine other).console := by
  rcases instruction with ⟨opcode, span, magnitude, origin⟩
  cases opcode with
  | putNumber => exact ⟨rfl, rfl, forked.write _⟩
  | putPoint => exact ⟨rfl, machine.putPoint_of_fork forked span.toNat⟩
  | getNumber => exact ⟨rfl, machine.getNumber_of_fork forked range span.toNat left_over⟩
  | getPoint => exact ⟨rfl, machine.getPoint_of_fork forked range span.toNat left_over⟩
  | push | combine | enqueue | dequeue | spread | jumpUnlessPositive | jump | halt =>
      exact ⟨rfl, rfl, forked⟩

end Instruction

namespace Run

theorem console_follow (run : Run) (program : Program) (move : Move) :
    (run.follow program move).2.console = run.console := by
  cases move with
  | advance => rfl
  | jump target =>
      simp only [follow]
      split <;> rfl
  | halt => rfl

theorem unread_step_suffix (run : Run) (range : Range) (program : Program) :
    (run.step range program).2.console.unread <:+ run.console.unread := by
  cases next : run.next? program with
  | none =>
      simp only [step_of_next?_none next]
      split <;> exact List.suffix_refl _
  | some instruction =>
      simp only [step_of_next? next, console_follow]
      exact instruction.unread_execute_suffix range run.machine run.console

/-- Input is only ever taken from the front. -/
theorem unread_steps_suffix (run : Run) (range : Range) (program : Program)
    {earlier later : Nat} (not_after : earlier ≤ later) :
    (run.steps range program later).console.unread <:+
      (run.steps range program earlier).console.unread := by
  rcases Nat.exists_eq_add_of_le not_after with ⟨extra, rfl⟩
  clear not_after
  induction extra with
  | zero => exact List.suffix_refl _
  | succ extra ih =>
      simp only [← Nat.add_assoc, steps_succ]
      exact (unread_step_suffix _ range program).trans ih

/-- Two runs that differ in nothing but what stands behind a common beginning of their inputs. -/
def Fork (first second : Bytes) (one other : Run) : Prop :=
  ∃ console, Console.Fork first second one.console console ∧ other = { one with console }

namespace Fork

variable {first second : Bytes} {one other : Run}

theorem follow (forked : Fork first second one other) (program : Program) (move : Move) :
    (other.follow program move).1 = (one.follow program move).1 ∧
      Fork first second (one.follow program move).2 (other.follow program move).2 := by
  rcases forked with ⟨console, forked, rfl⟩
  cases move with
  | advance => exact ⟨rfl, console, forked, rfl⟩
  | jump target =>
      simp only [Run.follow]
      split
      · exact ⟨rfl, console, forked, rfl⟩
      · exact ⟨rfl, console, forked, rfl⟩
  | halt => exact ⟨rfl, console, forked, rfl⟩

/-- One step of both runs, which leaves something of the common beginning. -/
theorem step (forked : Fork first second one other) (range : Range) (program : Program)
    (left_over : first.length < (one.step range program).2.console.unread.length) :
    (other.step range program).1 = (one.step range program).1 ∧
      Fork first second (one.step range program).2 (other.step range program).2 := by
  have same_next : other.next? program = one.next? program := by
    rcases forked with ⟨console, -, rfl⟩
    rfl
  cases next : one.next? program with
  | none =>
      simp only [step_of_next?_none next, step_of_next?_none (same_next.trans next), true_and]
      rcases forked with ⟨console, forked, rfl⟩
      by_cases running : one.status = .running
      · simp only [isRunning, running]
        exact ⟨console, forked, rfl⟩
      · simp only [isRunning, beq_iff_eq, running, if_false]
        exact ⟨console, forked, rfl⟩
  | some instruction =>
      simp only [step_of_next? next, console_follow] at left_over
      simp only [step_of_next? next, step_of_next? (same_next.trans next)]
      rcases forked with ⟨console, forked, rfl⟩
      rcases instruction.execute_of_fork forked range one.machine left_over with
        ⟨same_move, same_machine, forked_after⟩
      simp only [same_move]
      apply follow
      refine ⟨_, forked_after, ?_⟩
      simp only [perform, same_machine]

/-- As long as something of the common beginning is left, the runs stay together. -/
theorem steps (forked : Fork first second one other) (range : Range) (program : Program)
    {count : Nat}
    (left_over : first.length < (one.steps range program count).console.unread.length) :
    Fork first second (one.steps range program count) (other.steps range program count) := by
  induction count with
  | zero => exact forked
  | succ count ih =>
      simp only [steps_succ] at left_over ⊢
      have shorter := (unread_step_suffix (one.steps range program count) range program).length_le
      exact ((ih (left_over.trans_le shorter)).step range program left_over).2

end Fork

theorem fork_start (shared first second : Bytes) (traced : Bool) :
    Fork first second (start (shared ++ first) traced) (start (shared ++ second) traced) :=
  ⟨⟨shared ++ second, []⟩, ⟨⟨shared, rfl, rfl⟩, rfl⟩, rfl⟩

/-- The number of bytes that a run on the given input has taken from it. -/
def consumed (run : Run) (input : Bytes) : Nat :=
  input.length - run.console.unread.length

theorem unread_eq_drop_consumed (range : Range) (program : Program) (traced : Bool) (count : Nat)
    (input : Bytes) :
    ((start input traced).steps range program count).console.unread =
      input.drop (((start input traced).steps range program count).consumed input) := by
  have is_rest := (start input traced).unread_steps_suffix range program (Nat.zero_le count)
  exact List.suffix_iff_eq_drop.mp is_rest

/-- The runs show the same, and have taken equally many bytes of their inputs. -/
structure Indistinct (input : Bytes) (one : Run) (otherInput : Bytes) (other : Run) : Prop where
  machine : other.machine = one.machine
  pointer : other.pointer = one.pointer
  status : other.status = one.status
  output : other.console.output = one.console.output
  trace : other.trace = one.trace
  consumed : other.consumed otherInput = one.consumed input

theorem Fork.indistinct {shared first second : Bytes} {one other : Run}
    (forked : Fork first second one other) :
    Indistinct (shared ++ first) one (shared ++ second) other := by
  rcases forked with ⟨console, ⟨⟨rest, one_unread, other_unread⟩, same_output⟩, rfl⟩
  refine ⟨rfl, rfl, rfl, same_output, rfl, ?_⟩
  simp only [consumed, one_unread, other_unread, List.length_append]
  omega

/-- A number of steps that cannot be told apart by what they return and what they lead to. -/
structure SameCourse (range : Range) (program : Program) (traced : Bool) (count : Nat)
    (input otherInput : Bytes) : Prop where
  returned : ∀ taken < count,
    (((start otherInput traced).steps range program taken).step range program).1 =
      (((start input traced).steps range program taken).step range program).1
  states : ∀ taken ≤ count,
    Indistinct input ((start input traced).steps range program taken)
      otherInput ((start otherInput traced).steps range program taken)

variable {range : Range} {program : Program} {traced : Bool} {count : Nat}

theorem sameCourse_refl (input : Bytes) : SameCourse range program traced count input input := by
  constructor
  · intro taken _
    rfl
  · intro taken _
    exact ⟨rfl, rfl, rfl, rfl, rfl, rfl⟩

theorem sameCourse_of_consumed_lt {shared first : Bytes}
    (left_over : ((start (shared ++ first) traced).steps range program count).consumed
      (shared ++ first) < shared.length) (second : Bytes) :
    SameCourse range program traced count (shared ++ first) (shared ++ second) := by
  have left_at {taken : Nat} (not_after : taken ≤ count) : first.length <
      ((start (shared ++ first) traced).steps range program taken).console.unread.length := by
    have shorter := ((start (shared ++ first) traced).unread_steps_suffix range program
      not_after).length_le
    simp only [consumed, List.length_append] at left_over
    omega
  have forked_at {taken : Nat} (not_after : taken ≤ count) :=
    (fork_start shared first second traced).steps range program (left_at not_after)
  constructor
  · intro taken before_end
    have left_after := left_at (Nat.succ_le_of_lt before_end)
    simp only [steps_succ] at left_after
    exact ((forked_at before_end.le).step range program left_after).1
  · intro taken not_after
    exact (forked_at not_after).indistinct

theorem sameCourse_of_take_eq {input otherInput : Bytes} {seen : Nat}
    (beyond : ((start input traced).steps range program count).consumed input < seen)
    (agree : otherInput.take seen = input.take seen) :
    SameCourse range program traced count input otherInput := by
  by_cases inside : seen ≤ input.length
  · have input_eq : input.take seen ++ input.drop seen = input := List.take_append_drop seen input
    have other_eq : input.take seen ++ otherInput.drop seen = otherInput := by
      rw [← agree, List.take_append_drop]
    have left_over : ((start (input.take seen ++ input.drop seen) traced).steps range program
        count).consumed (input.take seen ++ input.drop seen) < (input.take seen).length := by
      rw [input_eq, List.length_take]
      omega
    have same := sameCourse_of_consumed_lt left_over (otherInput.drop seen)
    rwa [input_eq, other_eq] at same
  · -- The input ends before the byte in question, and then the other one ends there too.
    have same_length := congrArg List.length agree
    simp only [List.length_take] at same_length
    rw [List.take_of_length_le (by omega), List.take_of_length_le (by omega)] at agree
    rw [agree]
    exact sameCourse_refl input

/--
What a run does is settled by the bytes that it consumes and by the one behind them. If it leaves
something of the beginning of its input, then it takes the same course whatever follows that
beginning; and so it takes the same course on every input that agrees with its own up to one
byte beyond what it has consumed. Bytes are always consumed from the front of the input.
-/
theorem looks_one_byte_ahead (range : Range) (program : Program) (traced : Bool) (count : Nat) :
    (∀ shared first second : Bytes,
      ((start (shared ++ first) traced).steps range program count).consumed (shared ++ first) <
          shared.length →
        SameCourse range program traced count (shared ++ first) (shared ++ second)) ∧
      (∀ input otherInput : Bytes,
        let seen := ((start input traced).steps range program count).consumed input + 1
        otherInput.take seen = input.take seen →
          SameCourse range program traced count input otherInput) ∧
      ∀ input : Bytes, ((start input traced).steps range program count).console.unread =
        input.drop (((start input traced).steps range program count).consumed input) := by
  refine ⟨?_, ?_, ?_⟩
  · intro shared first second left_over
    exact sameCourse_of_consumed_lt left_over second
  · intro input otherInput seen agree
    exact sameCourse_of_take_eq (Nat.lt_succ_self _) agree
  · intro input
    exact unread_eq_drop_consumed range program traced count input

/--
A number, the blank behind it and a sequence that breaks off at a letter. The letter was seen
and stays, and what stands behind it makes no difference.
-/
theorem looks_one_byte_ahead_past_broken_sequence :
    let program : Program :=
      ⟨[⟨.getNumber, 1, 0, 0⟩, ⟨.getPoint, 1, 0, 1⟩, ⟨.getPoint, 1, 0, 2⟩, ⟨.putNumber, 1, 0, 3⟩],
        []⟩
    let shared : Bytes := ascii "7 " ++ [0xE2, 0x82] ++ ascii "A"
    ((start (shared ++ ascii "BC") false).steps .bounded program 4).consumed
        (shared ++ ascii "BC") = 4 ∧
      SameCourse .bounded program false 4 (shared ++ ascii "BC") (shared ++ [0xAC]) ∧
      SameCourse .bounded program false 4 (shared ++ ascii "BC") shared := by
  intro program shared
  have consumed : ((start (shared ++ ascii "BC") false).steps .bounded program 4).consumed
      (shared ++ ascii "BC") = 4 := by
    decide +kernel
  rcases looks_one_byte_ahead .bounded program false 4 with ⟨whatever_follows, agreeing, -⟩
  refine ⟨consumed, ?_, ?_⟩
  · apply whatever_follows
    rw [consumed]
    decide
  · apply agreeing
    rw [consumed]
    decide

end Run

end SpanMachine
