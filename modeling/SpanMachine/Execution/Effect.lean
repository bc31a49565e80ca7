import SpanMachine.Console
import SpanMachine.Execution.Machine
import SpanMachine.Number.Numeral
import SpanMachine.Program.Basic

/-!
# The effect of an instruction

Executing an instruction changes the machine and the console and says where to go
on. Nothing stops it: what cannot be done is replaced by a stand-in and counted as
a curse. Whether a jump leads into the program is left to the run.
-/

namespace SpanMachine

/-- Where execution goes on after an instruction. -/
inductive Move where
  | advance
  | jump (target : UInt64)
  | halt
  deriving DecidableEq

/-- The state after an instruction and the move that it asks for. -/
structure Effect where
  move : Move
  machine : Machine
  console : Console
  deriving DecidableEq

namespace Fraction

/-- The code point equal to the fraction, if that is a scalar value. -/
def toPoint? (value : Fraction) : Option Nat :=
  (value.toWord?.map UInt64.toNat).filter fun point => Utf8.IsScalar point

end Fraction

namespace Machine

/-- Takes the top of a stack and writes it as a numeral. -/
def putNumber (machine : Machine) (index : Nat) (console : Console) : Machine × Console :=
  let (answer, machine) := machine.pop index
  (machine, console.write answer.value.text)

/--
Takes the top of a stack and writes it as a code point. A missing value and a value
that is no code point raise one curse each, never both, and write nothing.
-/
def putPoint (machine : Machine) (index : Nat) (console : Console) : Machine × Console :=
  let (answer, machine) := machine.pop index
  if answer.cursed then
    (machine, console)
  else
    match answer.value.toPoint? with
    | some point => (machine, console.writePoint point)
    | none => (machine.curse, console)

/-- Reads a word as a numeral and pushes it, or a cursed zero if there is none. -/
def getNumber (machine : Machine) (range : Range) (index : Nat) (console : Console) :
    Machine × Console :=
  let (word, console) := console.readWord
  match word.bind (Numeral.read? range) with
  | some value => (machine.push index value, console)
  | none => (machine.curse.push index .zero, console)

/-- Reads a code point and pushes it, or a cursed zero if there is none. -/
def getPoint (machine : Machine) (range : Range) (index : Nat) (console : Console) :
    Machine × Console :=
  let (point, console) := console.readPoint
  match point with
  | some point =>
    let answer := Fraction.ofMagnitude range (UInt64.ofNat point)
    ((machine.absorb answer).push index answer.value, console)
  | none => (machine.curse.push index .zero, console)

end Machine

namespace Effect

/-- Going on with the next instruction. -/
def next (state : Machine × Console) : Effect :=
  ⟨.advance, state.1, state.2⟩

end Effect

namespace Instruction

/-- Executes one instruction. -/
def execute (instruction : Instruction) (range : Range) (machine : Machine) (console : Console) :
    Effect :=
  let span := instruction.span.toNat
  let magnitude := instruction.magnitude
  match instruction.opcode with
  | .push => .next (machine.pushMagnitude range span magnitude, console)
  | .combine operator => .next (machine.combine range operator span, console)
  | .enqueue =>
    let (answer, machine) := machine.pop span
    .next (machine.enqueue answer.value, console)
  | .dequeue =>
    let (answer, machine) := machine.dequeue
    .next (machine.push span answer.value, console)
  | .spread => .next (machine.spread span, console)
  | .jumpUnlessPositive =>
    let (sign, machine) := machine.topSign span
    ⟨if sign.value ≤ 0 then .jump magnitude else .advance, machine, console⟩
  | .jump => ⟨.jump magnitude, machine, console⟩
  | .putNumber => .next (machine.putNumber span console)
  | .putPoint => .next (machine.putPoint span console)
  | .getNumber => .next (machine.getNumber range span console)
  | .getPoint => .next (machine.getPoint range span console)
  | .halt => ⟨.halt, machine, console⟩

end Instruction

end SpanMachine
