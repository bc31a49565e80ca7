import SpanMachine.Proofs.Execution.Chain
import SpanMachine.Proofs.Execution.Output

/-!
# What an instruction changes, and what it leaves alone

The stacks of a machine are kept in a sorted list and come into being when they are first
mentioned. None of this matters to a program, which sees a row of numbered stacks, some of
them not there yet, a queue and a console. On this view each instruction has a plain effect:
it changes the values of a few stacks, perhaps the queue or the console, and nothing else.

Stack zero is never seen. What would be pushed onto it is dropped, and taking from it is like
taking from an empty stack.

The main statement says that executing an instruction and looking afterwards is the same as
looking first and applying the plain effect. A stack that is only looked at exists from then
on, with the values that it had.
-/

namespace SpanMachine

/-- What can be seen of a machine and its console. -/
@[ext]
structure View where
  /-- The values of each stack that exists, top first. -/
  contents : Nat → Option (List Fraction)
  /-- The waiting values, the next one to leave first. -/
  queue : List Fraction
  console : Console

namespace View

/-- The view of a machine and its console. -/
def of (machine : Machine) (console : Console) : View where
  contents index := if index = 0 then none else machine.store.get? index
  queue := machine.queue.items
  console := console

/-- The values of a stack, top first. A stack that does not exist has none. -/
def values (view : View) (index : Nat) : List Fraction :=
  (view.contents index).getD []

/-- The top of a stack, or zero if it has none. -/
def top (view : View) (index : Nat) : Fraction :=
  (view.values index).headD .zero

/-- Changes the values of the stacks from the first to the last, which exist from then on. -/
def adjust (view : View) (first last : Nat) (change : List Fraction → List Fraction) : View :=
  { view with
    contents := fun index =>
      if index ≠ 0 ∧ first ≤ index ∧ index ≤ last then
        some (change (view.values index))
      else
        view.contents index }

end View

namespace Instruction

/-- The effect of an instruction on what can be seen. -/
def transform (instruction : Instruction) (range : Range) (view : View) : View :=
  let span := instruction.span.toNat
  let magnitude := instruction.magnitude.toNat
  match instruction.opcode with
  | .push =>
    let value : Fraction := if range.Admits magnitude then .ofInt magnitude else .zero
    view.adjust 1 span (value :: ·)
  | .combine operator =>
    if 2 ≤ span then
      (view.adjust 1 (span - 1) List.tail).adjust span span fun values =>
        Fraction.accumulated range operator view.top span :: values.tail
    else
      view
  | .enqueue =>
    { view.adjust span span List.tail with queue := view.queue ++ [view.top span] }
  | .dequeue =>
    { view.adjust span span (view.queue.headD .zero :: ·) with queue := view.queue.tail }
  | .spread => (view.adjust 1 1 id).adjust 2 span (view.top 1 :: ·)
  | .jumpUnlessPositive => view.adjust span span id
  | .jump | .halt => view
  | .putNumber =>
    { view.adjust span span List.tail with console := view.console.write (view.top span).text }
  | .putPoint =>
    let text := ((view.values span).head?.bind Fraction.toPoint?).elim [] Utf8.encode
    { view.adjust span span List.tail with console := view.console.write text }
  | .getNumber =>
    let value := (view.console.readWord.1.bind (Numeral.read? range)).getD .zero
    { view.adjust span span (value :: ·) with console := view.console.readWord.2 }
  | .getPoint =>
    let value : Fraction := view.console.readPoint.1.elim .zero fun point => .ofInt point
    { view.adjust span span (value :: ·) with console := view.console.readPoint.2 }

/-- The move that an instruction asks for, told by what can be seen. -/
def moveOn (instruction : Instruction) (view : View) : Move :=
  match instruction.opcode with
  | .jump => .jump instruction.magnitude
  | .jumpUnlessPositive =>
    if ∀ top ∈ (view.values instruction.span.toNat).head?, top.num ≤ 0 then
      .jump instruction.magnitude
    else
      .advance
  | .halt => .halt
  | .push | .combine _ | .enqueue | .dequeue | .spread | .putNumber | .putPoint | .getNumber
  | .getPoint => .advance

end Instruction

namespace Machine

theorem get?_pushAll_of_not_mem {index : Nat} {indexes : List Nat} (outside : index ∉ indexes)
    (machine : Machine) (value : Fraction) :
    (machine.pushAll indexes value).store.get? index = machine.store.get? index := by
  induction indexes generalizing machine with
  | nil => rfl
  | cons first rest ih =>
      rw [List.mem_cons, not_or] at outside
      apply (ih outside.2 (machine.push first value)).trans
      exact Stacks.get?_push_of_ne outside.1 machine.store value

/-- Each of several different stacks gets the value once. -/
theorem get?_pushAll_of_mem {index : Nat} {indexes : List Nat} (index_ne_zero : index ≠ 0)
    (distinct : indexes.Nodup) (inside : index ∈ indexes) (machine : Machine) (value : Fraction) :
    (machine.pushAll indexes value).store.get? index =
      some (value :: machine.store.content index) := by
  induction indexes generalizing machine with
  | nil => cases inside
  | cons first rest ih =>
      rw [List.nodup_cons] at distinct
      by_cases here : index = first
      · subst here
        apply (get?_pushAll_of_not_mem distinct.1 (machine.push index value) value).trans
        exact Stacks.get?_push_self index_ne_zero machine.store value
      · have later : index ∈ rest := (List.mem_cons.mp inside).resolve_left here
        apply (ih distinct.2 later (machine.push first value)).trans
        have kept : (machine.push first value).store.get? index = machine.store.get? index :=
          Stacks.get?_push_of_ne here machine.store value
        rw [Stacks.content_of_get?_eq kept]

theorem queue_pushAll (machine : Machine) (indexes : List Nat) (value : Fraction) :
    (machine.pushAll indexes value).queue = machine.queue := by
  induction indexes generalizing machine with
  | nil => rfl
  | cons index rest ih => exact ih (machine.push index value)

end Machine

namespace View

section Stacks

variable (machine : Machine) (console : Console) (index : Nat) (value : Fraction)

theorem contents_of {index : Nat} (index_ne_zero : index ≠ 0) :
    (of machine console).contents index = machine.store.get? index :=
  if_neg index_ne_zero

theorem head?_values_of :
    ((of machine console).values index).head? = machine.store.peek? index := by
  simp only [values, of, Stacks.peek?]
  split
  · rfl
  · rfl

theorem top_of : (of machine console).top index = machine.store.topOrZero index := by
  rw [top, List.headD_eq_head?_getD, head?_values_of]
  rfl

/-- One lemma for all changes of the stacks: what they do to each stack by itself. -/
theorem of_eq_adjust {machine after : Machine} {first last : Nat}
    {change : List Fraction → List Fraction} (queue : after.queue = machine.queue)
    (inside : ∀ index, index ≠ 0 → first ≤ index → index ≤ last →
      after.store.get? index = some (change (machine.store.content index)))
    (outside : ∀ index, ¬(first ≤ index ∧ index ≤ last) →
      after.store.get? index = machine.store.get? index)
    (console : Console) :
    of after console = (of machine console).adjust first last change := by
  apply View.ext
  · funext index
    by_cases is_zero : index = 0
    · subst is_zero
      simp [of, adjust]
    · simp only [adjust, values, contents_of _ _ is_zero]
      split
      · rename_i chosen
        exact inside index is_zero chosen.2.1 chosen.2.2
      · rename_i not_chosen
        apply outside
        intro within
        exact not_chosen ⟨is_zero, within⟩
  · exact congrArg Queue.items queue
  · rfl

theorem of_push :
    of (machine.push index value) console =
      (of machine console).adjust index index (value :: ·) := by
  apply of_eq_adjust
  · rfl
  · intro other other_ne_zero least greatest
    have same : other = index := Nat.le_antisymm greatest least
    subst same
    exact Stacks.get?_push_self other_ne_zero machine.store value
  · intro other apart
    exact Stacks.get?_push_of_ne (by omega) machine.store value

theorem of_pop :
    of (machine.pop index).2 console = (of machine console).adjust index index List.tail := by
  apply of_eq_adjust
  · rfl
  · intro other other_ne_zero least greatest
    have same : other = index := Nat.le_antisymm greatest least
    subst same
    exact Stacks.get?_pop_self other_ne_zero machine.store
  · intro other apart
    exact Stacks.get?_pop_of_ne (by omega) machine.store

theorem of_top :
    of (machine.top index).2 console = (of machine console).adjust index index id := by
  apply of_eq_adjust
  · rfl
  · intro other other_ne_zero least greatest
    have same : other = index := Nat.le_antisymm greatest least
    subst same
    exact Stacks.get?_top_self other_ne_zero machine.store
  · intro other apart
    exact Stacks.get?_top_of_ne (by omega) machine.store

theorem of_pushAll {first last count : Nat}
    (covered : ∀ index, index ∈ List.range' first count ↔ first ≤ index ∧ index ≤ last) :
    of (machine.pushAll (List.range' first count) value) console =
      (of machine console).adjust first last (value :: ·) := by
  apply of_eq_adjust
  · exact machine.queue_pushAll _ value
  · intro index index_ne_zero least greatest
    apply Machine.get?_pushAll_of_mem index_ne_zero List.nodup_range'
    exact (covered index).mpr ⟨least, greatest⟩
  · intro index apart
    apply Machine.get?_pushAll_of_not_mem
    exact mt (covered index).mp apart

theorem of_combine (range : Range) (operator : Operator) {span : Nat} (several : 2 ≤ span) :
    of (machine.combine range operator span) console =
      ((of machine console).adjust 1 (span - 1) List.tail).adjust span span fun values =>
        Fraction.accumulated range operator machine.store.topOrZero span :: values.tail := by
  have standing := machine.reached_combine range operator (show span ≠ 0 by omega)
  apply View.ext
  · funext index
    by_cases is_zero : index = 0
    · subst is_zero
      simp [of, adjust]
    · by_cases here : index = span
      · subst here
        have not_passed : ¬(1 ≤ index ∧ index ≤ index - 1) := by omega
        simp only [adjust, values, contents_of _ _ is_zero, is_zero, not_passed, ne_eq,
          not_false_eq_true, Nat.le_refl, and_self, and_false, if_true, if_false]
        exact machine.get?_combine_span range operator several
      · have not_here : ¬(span ≤ index ∧ index ≤ span) := by omega
        simp only [adjust, values, contents_of _ _ is_zero, is_zero, not_here, ne_eq,
          not_false_eq_true, true_and, and_false, if_false]
        split
        · exact standing.passed index (by omega) (by omega)
        · exact standing.others index (by omega)
  · exact congrArg Queue.items (machine.queue_combine range operator span)
  · rfl

end Stacks

section Queue

variable (machine : Machine) (console : Console)

theorem of_dequeue :
    of machine.dequeue.2 console =
      { of machine console with queue := (of machine console).queue.tail } := by
  rcases machine with ⟨store, ⟨items⟩, curses⟩
  cases items with
  | nil => rfl
  | cons front rest => rfl

theorem value_dequeue :
    machine.dequeue.1.value = (of machine console).queue.headD .zero := by
  rcases machine with ⟨store, ⟨items⟩, curses⟩
  cases items with
  | nil => rfl
  | cons front rest => rfl

theorem value_pop (index : Nat) :
    (machine.pop index).1.value = (of machine console).top index := by
  rw [top_of]
  simp only [Machine.pop, Stacks.pop_eq, Fraction.value_orCurse]
  rfl

theorem value_top (index : Nat) :
    (machine.top index).1.value = (of machine console).top index := by
  rw [top_of]
  simp only [Machine.top, Stacks.top_eq, Fraction.value_orCurse]
  rfl

end Queue

section Console

variable (machine : Machine) (range : Range) (index : Nat) (console : Console)

theorem of_putPoint :
    of (machine.putPoint index console).1 (machine.putPoint index console).2 =
      { (of machine console).adjust index index List.tail with
        console := console.write
          (((of machine console).values index).head?.bind Fraction.toPoint?
            |>.elim [] Utf8.encode) } := by
  have nothing_written : console.write [] = console := by
    simp [Console.write]
  rw [head?_values_of, ← of_pop]
  simp only [Machine.putPoint, Machine.pop, Stacks.pop_eq]
  cases machine.store.peek? index with
  | none =>
      simp only [Option.bind_none, Option.elim_none, nothing_written]
      rfl
  | some top =>
      simp only [Fraction.orCurse, Option.bind_some]
      cases top.toPoint? with
      | none =>
          simp only [Option.elim_none, nothing_written]
          rfl
      | some point => rfl

theorem of_getNumber :
    of (machine.getNumber range index console).1 (machine.getNumber range index console).2 =
      { (of machine console).adjust index index
          ((console.readWord.1.bind (Numeral.read? range)).getD .zero :: ·) with
        console := console.readWord.2 } := by
  rw [← of_push]
  simp only [Machine.getNumber]
  cases console.readWord.1.bind (Numeral.read? range) with
  | none => rfl
  | some value => rfl

theorem of_getPoint :
    of (machine.getPoint range index console).1 (machine.getPoint range index console).2 =
      { (of machine console).adjust index index
          (console.readPoint.1.elim .zero (fun point => .ofInt point) :: ·) with
        console := console.readPoint.2 } := by
  rw [← of_push]
  cases found : console.readPoint.1 with
  | none =>
      simp only [Machine.getPoint, found]
      rfl
  | some point =>
      have read : console.readPoint = (some point, console.readPoint.2) := Prod.ext found rfl
      rw [Machine.getPoint_of_readPoint read]
      rfl

end Console

end View

namespace Fraction

theorem value_ofMagnitude (range : Range) (magnitude : UInt64) :
    (ofMagnitude range magnitude).value =
      if range.Admits magnitude.toNat then ofInt magnitude.toNat else zero := by
  rw [ofMagnitude]
  split
  · rfl
  · rfl

end Fraction

namespace Instruction

open View

variable (instruction : Instruction) (range : Range) (machine : Machine) (console : Console)

theorem view_execute :
    View.of (instruction.execute range machine console).machine
        (instruction.execute range machine console).console =
      instruction.transform range (View.of machine console) := by
  rcases instruction with ⟨opcode, span, magnitude, origin⟩
  cases opcode with
  | push =>
      simp only [execute, transform, Effect.next, Machine.pushMagnitude,
        ← Fraction.value_ofMagnitude]
      have covered : ∀ index, index ∈ List.range' 1 span.toNat ↔
          1 ≤ index ∧ index ≤ span.toNat := by
        intro index
        rw [List.mem_range'_1]
        omega
      have pushed := of_pushAll (machine.absorb (Fraction.ofMagnitude range magnitude)) console
        (Fraction.ofMagnitude range magnitude).value covered
      split
      · rename_i span_zero
        rw [span_zero] at pushed ⊢
        exact pushed
      · exact pushed
  | combine operator =>
      have tops : (View.of machine console).top = machine.store.topOrZero := by
        funext index
        exact top_of machine console index
      simp only [execute, transform, Effect.next, tops]
      split
      · rename_i several
        exact of_combine machine console range operator several
      · rename_i few
        rw [machine.combine_of_lt_two range operator (by omega)]
  | enqueue =>
      simp only [execute, transform, Effect.next, ← value_pop, ← of_pop]
      rfl
  | dequeue =>
      simp only [execute, transform, Effect.next, of_push, of_dequeue, ← value_dequeue]
      rfl
  | spread =>
      have covered : ∀ index, index ∈ List.range' 2 (span.toNat - 1) ↔
          2 ≤ index ∧ index ≤ span.toNat := by
        intro index
        rw [List.mem_range'_1]
        omega
      simp only [execute, transform, Effect.next, Machine.spread, of_pushAll _ _ _ covered,
        of_top, value_top _ console]
  | jumpUnlessPositive => exact of_top machine console span.toNat
  | jump => rfl
  | putNumber =>
      simp only [execute, transform, Effect.next, Machine.putNumber, ← value_pop, ← of_pop]
      rfl
  | putPoint => exact of_putPoint machine span.toNat console
  | getNumber => exact of_getNumber machine range span.toNat console
  | getPoint => exact of_getPoint machine range span.toNat console
  | halt => rfl

theorem move_execute :
    (instruction.execute range machine console).move =
      instruction.moveOn (View.of machine console) := by
  rcases instruction with ⟨opcode, span, magnitude, origin⟩
  cases opcode with
  | jumpUnlessPositive =>
      simp only [execute, moveOn, Machine.topSign_eq, sign_orCurse_le_zero_iff, head?_values_of,
        Fraction.sign, Int.sign_nonpos_iff]
  | push | combine | enqueue | dequeue | spread | jump | putNumber | putPoint | getNumber
  | getPoint | halt => rfl

/--
Effect and frame of every instruction, in every state. What can be seen after an instruction
is what its plain effect makes of what could be seen before, so that all that the effect does
not mention is as it was: other stacks and whether they exist, the queue, the unread input and
the output. The move is the one that can be told from the view, and the curses are those of the
faults that the instruction meets.
-/
theorem execute_transforms_view (instruction : Instruction) (range : Range) (machine : Machine)
    (console : Console) :
    let effect := instruction.execute range machine console
    let view := View.of machine console
    View.of effect.machine effect.console = instruction.transform range view ∧
      effect.move = instruction.moveOn view ∧
      effect.machine.curses = machine.curses + instruction.faults range machine console := by
  intro effect view
  refine ⟨?_, ?_, ?_⟩
  · exact instruction.view_execute range machine console
  · exact instruction.move_execute range machine console
  · exact instruction.curses_execute range machine console

end Instruction

end SpanMachine
