import SpanMachine.Number.Arithmetic

/-!
# Opcodes

Each opcode has one mnemonic, by which it is printed, and takes a fixed number of
operands. The four operators are one opcode with the operator as its argument.
-/

namespace SpanMachine

/-- What an instruction does. -/
inductive Opcode where
  /-- Pushes the magnitude onto the stacks from 1 to the span. -/
  | push
  /-- Joins the tops of the stacks from 1 to the span, left to right. -/
  | combine (operator : Operator)
  /-- Moves the top of a stack to the queue. -/
  | enqueue
  /-- Moves the front of the queue to a stack. -/
  | dequeue
  /-- Copies the top of stack 1 to the stacks from 2 to the span. -/
  | spread
  /-- Jumps unless the top of a stack is positive. -/
  | jumpUnlessPositive
  /-- Jumps. -/
  | jump
  /-- Writes the top of a stack as a numeral. -/
  | putNumber
  /-- Writes the top of a stack as a code point. -/
  | putPoint
  /-- Reads a numeral onto a stack. -/
  | getNumber
  /-- Reads a code point onto a stack. -/
  | getPoint
  /-- Ends the run. -/
  | halt
  deriving DecidableEq

namespace Operator

/-- The word that names an operator in a listing. -/
def mnemonic : Operator → Bytes
  | add => ascii "add"
  | sub => ascii "sub"
  | mul => ascii "mul"
  | div => ascii "div"

end Operator

namespace Opcode

/-- The word that names an opcode in a listing. -/
def mnemonic : Opcode → Bytes
  | push => ascii "push"
  | combine operator => operator.mnemonic
  | enqueue => ascii "enqueue"
  | dequeue => ascii "dequeue"
  | spread => ascii "spread"
  | jumpUnlessPositive => ascii "jle"
  | jump => ascii "jmp"
  | putNumber => ascii "putn"
  | putPoint => ascii "putc"
  | getNumber => ascii "getn"
  | getPoint => ascii "getc"
  | halt => ascii "halt"

/-- The number of operands in a listing. -/
def operandCount : Opcode → Nat
  | push | jumpUnlessPositive => 2
  | halt => 0
  | combine _ | enqueue | dequeue | spread | jump | putNumber | putPoint | getNumber
  | getPoint => 1

end Opcode

end SpanMachine
