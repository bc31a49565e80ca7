import SpanMachine.Listing.Fault
import SpanMachine.Program.Basic

/-!
# Reading a listing

A listing is read line by line into a draft, in which a jump may still name a label
that has not been seen. When all lines are read, the names are looked up in the order
of the jumps. So a fault in any line is found before an undefined label is, and
labels may be used above the line that defines them.

Within a line the label comes first, then the mnemonic, the number of operands, and
the operands from left to right.
-/

namespace SpanMachine

namespace Opcode

/-- The words that name an opcode, in the order in which they are tried. -/
def keywords : List (Bytes × Opcode) :=
  [(ascii "push", push), (ascii "add", combine .add), (ascii "sub", combine .sub),
    (ascii "mul", combine .mul), (ascii "div", combine .div), (ascii "enqueue", enqueue),
    (ascii "dequeue", dequeue), (ascii "spread", spread), (ascii "jle", jumpUnlessPositive),
    (ascii "jmp", jump), (ascii "putn", putNumber), (ascii "putc", putPoint),
    (ascii "getn", getNumber), (ascii "getc", getPoint), (ascii "halt", halt)]

/-- The opcode that a word names. -/
def ofMnemonic? (word : Bytes) : Option Opcode :=
  keywords.lookup word

end Opcode

/-- An instruction as a line states it. -/
structure Statement where
  line : Nat
  opcode : Opcode
  span : UInt64 := 0
  magnitude : UInt64 := 0
  /-- The label whose place is to become the magnitude. -/
  reference : Option Token := none
  deriving DecidableEq

/-- The statements and labels of the lines read so far. -/
structure Draft where
  statements : List Statement := []
  labels : List Label := []
  deriving DecidableEq

namespace Statement

/-- Reads the numeral of an operand. -/
def readNumber (line : Nat) (operand : Operand) (token : Token) : Except ListingError UInt64 :=
  match Decimal.readWord? token.text with
  | none => .error (token.error line (.malformed operand token.text))
  | some word => .ok word

/-- Reads a target, which is a label if it has the form of one. -/
def addTarget (statement : Statement) (token : Token) : Except ListingError Statement :=
  if Listing.isLabelName token.text then
    .ok { statement with reference := some token }
  else do
    let magnitude ← readNumber statement.line .target token
    return { statement with magnitude }

/-- Reads the operands that an opcode takes, of which there are enough. -/
def ofOperands (line : Nat) (opcode : Opcode) (operand : Nat → Token) :
    Except ListingError Statement := do
  match opcode with
  | .push =>
    let span ← readNumber line .span (operand 0)
    let magnitude ← readNumber line .magnitude (operand 1)
    return { line, opcode, span, magnitude }
  | .jumpUnlessPositive =>
    let span ← readNumber line .span (operand 0)
    addTarget { line, opcode, span } (operand 1)
  | .jump => addTarget { line, opcode } (operand 0)
  | .halt => return { line, opcode }
  | _ =>
    let span ← readNumber line .span (operand 0)
    return { line, opcode, span }

/-- Reads a statement from its mnemonic and the tokens after it. -/
def ofTokens (line : Nat) (head : Token) (arguments : List Token) :
    Except ListingError Statement :=
  match Opcode.ofMnemonic? head.text with
  | none => .error (head.error line (.unknownMnemonic head.text))
  | some opcode =>
    if arguments.length = opcode.operandCount then
      ofOperands line opcode fun index => arguments.getD index head
    else
      let last := arguments.getLastD head
      .error ⟨.operandCount head.text opcode.operandCount arguments.length, line, head.column,
        last.lastColumn⟩

/-- The instruction of a statement, once the places of all labels are known. -/
def resolve (labels : List Label) (statement : Statement) : Except ListingError Instruction :=
  let instruction (magnitude : UInt64) : Instruction :=
    ⟨statement.opcode, statement.span, magnitude, statement.line + 1⟩
  match statement.reference with
  | none => .ok (instruction statement.magnitude)
  | some token =>
    match labels.find? fun label => label.name == token.text with
    | some label => .ok (instruction (UInt64.ofNat label.index))
    | none => .error (token.error statement.line (.undefinedLabel token.text))

end Statement

namespace Draft

/-- Defines the label that a token with a final colon names. -/
def addLabel (draft : Draft) (line : Nat) (token : Token) : Except ListingError Draft :=
  let name := token.text.dropLast
  if !Listing.isLabelName name then
    .error (token.error line (.invalidLabel name))
  else if draft.labels.any fun label => label.name == name then
    .error (token.error line (.duplicateLabel name))
  else
    .ok { draft with labels := draft.labels ++ [⟨draft.statements.length, name⟩] }

/-- Appends the statement that the tokens make up, if there are any. -/
def addStatement (draft : Draft) (line : Nat) : List Token → Except ListingError Draft
  | [] => .ok draft
  | head :: arguments => do
    let statement ← Statement.ofTokens line head arguments
    return { draft with statements := draft.statements ++ [statement] }

/-- Reads one line: an optional label, then an optional statement. -/
def addLine (draft : Draft) (line : Nat) : List Token → Except ListingError Draft
  | [] => .ok draft
  | head :: rest =>
    if head.text.getLast? = some Byte.colon then do
      let draft ← draft.addLabel line head
      draft.addStatement line rest
    else
      draft.addStatement line (head :: rest)

/-- Reads lines, of which the first has the given number. -/
def addLines (draft : Draft) (line : Nat) : List Bytes → Except ListingError Draft
  | [] => .ok draft
  | text :: rest => do
    let draft ← draft.addLine line (Listing.tokens text)
    draft.addLines (line + 1) rest

/-- Looks all labels up. -/
def toProgram (draft : Draft) : Except ListingError Program := do
  let code ← draft.statements.mapM (Statement.resolve draft.labels)
  return ⟨code, draft.labels⟩

end Draft

namespace Program

/-- Reads a program from a listing. -/
def ofListing (text : Bytes) : Except ListingError Program := do
  let draft ← Draft.addLines {} 0 (Listing.lines text)
  draft.toProgram

end Program

end SpanMachine
