import SpanMachine.Execution.Machine

/-!
# Machine dumps

The state of a machine as text: a line for each stack that was mentioned, in order
of their numbers and with the bottom first, a line for the queue with its front
first, and a line for the number of curses.
-/

namespace SpanMachine

namespace Machine

/-- A named list of fractions on a line of its own. -/
def dumpLine (name : Bytes) (values : List Fraction) : Bytes :=
  name ++ ascii ": [" ++ (ascii ", ").intercalate (values.map Fraction.text) ++ ascii "]\n"

/-- The line of a stack, with its bottom first. -/
def dumpStack : Nat × List Fraction → Bytes
  | (index, content) => dumpLine (ascii "stack " ++ Decimal.ofNat index) content.reverse

/-- The whole state as text. -/
def dump (machine : Machine) : Bytes :=
  machine.store.entries.flatMap dumpStack ++ dumpLine (ascii "queue") machine.queue.items ++
    ascii "curses: " ++ Decimal.ofNat machine.curses ++ [Byte.lineFeed]

end Machine

end SpanMachine
