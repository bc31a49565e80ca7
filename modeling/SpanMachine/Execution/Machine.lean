import SpanMachine.Storage.Queue
import SpanMachine.Storage.Stacks

/-!
# The machine

The state of a machine is its stacks, its queue and the number of curses raised so
far, which never falls. The operations below are those of the stores, with every
curse counted as it is raised.
-/

namespace SpanMachine

/-- All that a program computes with. -/
structure Machine where
  store : Stacks := {}
  queue : Queue := {}
  curses : Nat := 0
  deriving DecidableEq

namespace Machine

/-- Counts one curse. -/
def curse (machine : Machine) : Machine :=
  { machine with curses := machine.curses + 1 }

/-- Counts the curse of an answer, if it has one. -/
def absorb {α : Type} (machine : Machine) (answer : Answer α) : Machine :=
  { machine with curses := machine.curses + answer.curses }

/-- Puts a value on top of a stack. -/
def push (machine : Machine) (index : Nat) (value : Fraction) : Machine :=
  { machine with store := machine.store.push index value }

/-- Pushes one value onto several stacks, in the given order. -/
def pushAll (machine : Machine) (indexes : List Nat) (value : Fraction) : Machine :=
  indexes.foldl (fun machine index => machine.push index value) machine

/-- Takes the top off a stack. -/
def pop (machine : Machine) (index : Nat) : Answer Fraction × Machine :=
  let (answer, store) := machine.store.pop index
  (answer, { machine with store := store }.absorb answer)

/-- Looks at the top of a stack. -/
def top (machine : Machine) (index : Nat) : Answer Fraction × Machine :=
  let (answer, store) := machine.store.top index
  (answer, { machine with store := store }.absorb answer)

/-- Looks at the sign of the top of a stack. -/
def topSign (machine : Machine) (index : Nat) : Answer Int × Machine :=
  let (answer, store) := machine.store.topSign index
  (answer, { machine with store := store }.absorb answer)

/-- Puts a value at the back of the queue. -/
def enqueue (machine : Machine) (value : Fraction) : Machine :=
  { machine with queue := machine.queue.enqueue value }

/-- Takes the value at the front of the queue. -/
def dequeue (machine : Machine) : Answer Fraction × Machine :=
  let (answer, queue) := machine.queue.dequeue
  (answer, { machine with queue := queue }.absorb answer)

/-- Pushes a magnitude onto the stacks from 1 to the span; a span of zero does nothing at all. -/
def pushMagnitude (machine : Machine) (range : Range) (span : Nat) (magnitude : UInt64) :
    Machine :=
  if span = 0 then
    machine
  else
    let answer := Fraction.ofMagnitude range magnitude
    (machine.absorb answer).pushAll (List.range' 1 span) answer.value

/-- Takes the tops of a stack and of the next one, and puts their combination on the next one. -/
def combineAt (range : Range) (operator : Operator) (machine : Machine) (index : Nat) : Machine :=
  let (left, machine) := machine.pop index
  let (right, machine) := machine.pop (index + 1)
  let answer := Fraction.combine range operator left.value right.value
  (machine.absorb answer).push (index + 1) answer.value

/-- Combines the stacks from 1 to the span; the result of each step is the left side of the next. -/
def combine (machine : Machine) (range : Range) (operator : Operator) (span : Nat) : Machine :=
  (List.range' 1 (span - 1)).foldl (combineAt range operator) machine

/-- Copies the top of stack 1, which is looked at even if the span leaves nothing to copy to. -/
def spread (machine : Machine) (span : Nat) : Machine :=
  let (answer, machine) := machine.top 1
  machine.pushAll (List.range' 2 (span - 1)) answer.value

end Machine

end SpanMachine
