import SpanMachine.Program.Basic

/-!
# Printed listings

An instruction is printed on a line of its own, indented by a tab, with its mnemonic
in a column of seven and the numbers that its opcode uses after it. A comment with the
instruction's index and origin follows. Comments are aligned with the widest
instruction printed so far; lines above it are not moved.

A label has a line of its own in front of its instruction. It is printed up to the
first NUL byte of its name.
-/

namespace SpanMachine

namespace Instruction

/-- The width of the column of mnemonics. -/
def mnemonicWidth : Nat :=
  7

/-- The numbers after the mnemonic. -/
def numbers (instruction : Instruction) : List UInt64 :=
  match instruction.opcode with
  | .jump => [instruction.magnitude]
  | .halt => []
  | .push | .jumpUnlessPositive => [instruction.span, instruction.magnitude]
  | _ => [instruction.span]

/-- The instruction as it stands in a listing, without comment. -/
def text (instruction : Instruction) : Bytes :=
  Byte.tab :: Bytes.padRight mnemonicWidth instruction.opcode.mnemonic ++
    instruction.numbers.flatMap fun number => Byte.space :: Decimal.ofNat number.toNat

/-- The line of an instruction, whose comment is aligned with the given width. -/
def line (instruction : Instruction) (index width : Nat) : Bytes :=
  Bytes.padRight width instruction.text ++ ascii "  ; " ++ Decimal.padded 4 index ++
    ascii " line " ++ Decimal.ofNat instruction.origin ++ [Byte.lineFeed]

end Instruction

namespace Program

/-- The lines of the labels of one place. -/
def labelLines (program : Program) (index : Nat) : Bytes :=
  (program.namesAt index).flatMap fun name => name.upToNul ++ [Byte.colon, Byte.lineFeed]

/--
The lines of instructions from the given index on, where `width` is that of the widest
instruction above them.
-/
def linesFrom (program : Program) (index width : Nat) : List Instruction → Bytes
  | [] => program.labelLines index
  | instruction :: rest =>
    let width := max width instruction.text.length
    program.labelLines index ++ instruction.line index width ++
      program.linesFrom (index + 1) width rest

/-- The whole program as text. -/
def toListing (program : Program) : Bytes :=
  program.linesFrom 0 0 program.code

end Program

end SpanMachine
