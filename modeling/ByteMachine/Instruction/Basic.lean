import ByteMachine.Instruction.Table
import ByteMachine.Text.Numeral

/-!
# Instructions

An instruction as an image holds it: registers by their index, immediate values, and for a
branch the address of its target if the image carries it. The operands, the bytes and the
printed form are all read off one list of fields, each a kind with its byte.
-/

namespace ByteMachine

/-- An **instruction** with its operand bytes. The target of a branch is `none` where the
image does not carry it. -/
inductive Instruction
  | exit
  | store (register value : UInt8)
  | load (register value : UInt8)
  | add (target source value : UInt8)
  | sub (target source value : UInt8)
  | branchIf (register value : UInt8) (address : Option UInt8)
  | jump (address : Option UInt8)
  | display (register : UInt8)
  deriving DecidableEq, Repr

namespace Instruction

/-- The row of the instruction table that an instruction belongs to. What is common to all
instructions of a row is looked up there. -/
def mnemonic : Instruction → Mnemonic
  | exit => .exit
  | store _ _ => .store
  | load _ _ => .load
  | add _ _ _ => .add
  | sub _ _ _ => .sub
  | branchIf _ _ _ => .branchIf
  | jump _ => .jump
  | display _ => .display

/-- The **fields**: the operands that stand in the image, each with its kind. Whatever is said about
operands is read off this list. -/
def fields : Instruction → List (OperandKind × UInt8)
  | exit => []
  | store register value => [(.register, register), (.immediate, value)]
  | load register value => [(.register, register), (.immediate, value)]
  | add target source value =>
    [(.register, target), (.register, source), (.immediate, value)]
  | sub target source value =>
    [(.register, target), (.register, source), (.immediate, value)]
  | branchIf register value address =>
    (.register, register) :: (.immediate, value) :: address.toList.map fun byte => (.label, byte)
  | jump address => address.toList.map fun byte => (.label, byte)
  | display register => [(.register, register)]

/-- The kinds of the operands that stand in the image, in order: a target that is left out has
none. -/
def kinds (instruction : Instruction) : List OperandKind :=
  instruction.fields.map Prod.fst

/-- The operand bytes of an instruction, in the order of the image. -/
def operands (instruction : Instruction) : List UInt8 :=
  instruction.fields.map Prod.snd

/-- The **bytes** of the instruction: its opcode, then its operands. An image is made of these. -/
def bytes (instruction : Instruction) : List UInt8 :=
  instruction.mnemonic.opcode :: instruction.operands

/-- The number of bytes of an instruction, the opcode included. -/
def length (instruction : Instruction) : Nat :=
  1 + instruction.operands.length

/-- An operand as it is printed: `R` and the index of a register, the address of a label,
and the decimal value of anything else. -/
def fieldText : OperandKind × UInt8 → Text
  | (.register, byte) => 'R' :: Text.decimal byte.toNat
  | (.label, byte) => Text.address byte.toNat
  | (_, byte) => Text.decimal byte.toNat

/-- The **printed form**: the name, and behind a space the operands with commas between
them. -/
def format (instruction : Instruction) : Text :=
  match instruction.fields with
  | [] => instruction.mnemonic.name
  | fields =>
    instruction.mnemonic.name ++ ' ' :: Text.joinWith [',', ' '] (fields.map fieldText)

@[simp] theorem length_bytes (instruction : Instruction) :
    instruction.bytes.length = instruction.length := by
  simp [bytes, length, Nat.add_comm]

end Instruction

end ByteMachine
