import SpanMachine.Program.Opcode

/-!
# Programs

An instruction carries a span and a magnitude whether or not its opcode uses them,
and the number of the line it came from. A program is a list of instructions with
labels, each of which stands before the instruction of its index; the index after
the last instruction is allowed.

Programs grow at the end, so that their labels are always in order of index.
-/

namespace SpanMachine

/-- One instruction of a program. -/
structure Instruction where
  opcode : Opcode
  span : UInt64 := 0
  magnitude : UInt64 := 0
  /-- Where the instruction was found; it is only shown and never acted upon. -/
  origin : Nat := 0
  deriving DecidableEq

/-- A name for the place before an instruction. -/
structure Label where
  index : Nat
  name : Bytes
  deriving DecidableEq

/-- Instructions and the names of places between them. -/
structure Program where
  code : List Instruction := []
  labels : List Label := []
  deriving DecidableEq

namespace Program

/-- The number of instructions. -/
def size (program : Program) : Nat :=
  program.code.length

/-- Appends an instruction whose origin is its own index. -/
def emit (program : Program) (opcode : Opcode) (span magnitude : UInt64) : Program :=
  { program with code := program.code ++ [⟨opcode, span, magnitude, program.size⟩] }

/-- Changes the origin of the last instruction. -/
def withOrigin (program : Program) (origin : Nat) : Program :=
  { program with
    code := program.code.modify (program.size - 1) fun last => { last with origin := origin } }

/-- Names the place after the last instruction. -/
def addLabel (program : Program) (name : Bytes) : Program :=
  { program with labels := program.labels ++ [⟨program.size, name⟩] }

/-- The names of the place before an instruction, in the order in which they were given. -/
def namesAt (program : Program) (index : Nat) : List Bytes :=
  (program.labels.filter fun label => label.index == index).map Label.name

end Program

end SpanMachine
