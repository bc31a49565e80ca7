/-!
# Answers that can be cursed

No operation of the machine ever fails. One that has no proper result answers
with a stand-in value and raises a curse, so that execution always goes on and
the number of curses tells how often a stand-in was used.
-/

namespace SpanMachine

/-- A value, and whether it is only a stand-in for one that does not exist. -/
structure Answer (α : Type) where
  value : α
  cursed : Bool := false
  deriving DecidableEq

namespace Answer

variable {α β : Type}

/-- The number of curses that an answer raises. -/
def curses (answer : Answer α) : Nat :=
  answer.cursed.toNat

/-- The same answer seen through a function of its value. -/
def map (view : α → β) (answer : Answer α) : Answer β :=
  ⟨view answer.value, answer.cursed⟩

/-- The value of an answer that is not cursed. -/
def toOption (answer : Answer α) : Option α :=
  if answer.cursed then none else some answer.value

end Answer

end SpanMachine
