import SpanMachine.Number.Arithmetic

/-!
# The queue

Values leave the queue in the order in which they came. An empty queue answers
with a cursed zero.
-/

namespace SpanMachine

/-- The waiting values, the next one to leave first. -/
structure Queue where
  items : List Fraction := []
  deriving DecidableEq

namespace Queue

/-- The number of waiting values. -/
def size (queue : Queue) : Nat :=
  queue.items.length

/-- No value is waiting. -/
def isEmpty (queue : Queue) : Bool :=
  queue.items.isEmpty

/-- Puts a value at the back. -/
def enqueue (queue : Queue) (value : Fraction) : Queue :=
  ⟨queue.items ++ [value]⟩

@[simp]
theorem items_enqueue (queue : Queue) (value : Fraction) :
    (queue.enqueue value).items = queue.items ++ [value] :=
  rfl

/-- Takes the value at the front. -/
def dequeue (queue : Queue) : Answer Fraction × Queue :=
  match queue.items with
  | [] => (Fraction.curse, queue)
  | front :: rest => (⟨front, false⟩, ⟨rest⟩)

end Queue

end SpanMachine
