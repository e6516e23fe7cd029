import ByteMachine.Profile
import ByteMachine.Text.Basic

/-!
# The instruction table

The eight instructions of the machine: their names, their opcodes and the kinds of operands
they are written with. Everything else that is said about an instruction by its name, such
as its length in an image or which of its operands an image holds, is derived from this
table.

* `Mnemonic.operandKinds`: the operands in the order in which they are written.
* `Mnemonic.encodedKinds`: those that stand in the image, one byte each. A label stands there
  only under a profile that encodes branch targets.
* `Mnemonic.length`: the opcode and the encoded operands.
-/

namespace ByteMachine

/-- The **kind** of an operand. A definition from outside the table may name a kind that
does not exist. -/
inductive OperandKind
  | register
  | immediate
  | label
  | unknown (name : String)
  deriving DecidableEq, Repr

namespace OperandKind

def name : OperandKind → String
  | register => "REG"
  | immediate => "IMM"
  | label => "LABEL"
  | unknown name => name

/-- The kind of a given name. A name without a kind is kept as it is. -/
def ofName (name : String) : OperandKind :=
  if name = "REG" then register
  else if name = "IMM" then immediate
  else if name = "LABEL" then label
  else unknown name

end OperandKind

/-- A **definition** of an instruction: its name and the kinds of its operands, as a line of a
program text has them. -/
structure Definition where
  name : Text
  operandKinds : List OperandKind
  deriving DecidableEq, Repr

namespace Definition

def arity (definition : Definition) : Nat :=
  definition.operandKinds.length

/-- A **branch** is an instruction with a label among its operands. Only branches have sites and
targets. -/
def isBranch (definition : Definition) : Bool :=
  definition.operandKinds.contains .label

end Definition

/-- The **instructions** of the machine, one for each row of the table. Encoding, decoding and
lengths are all read off the table. -/
inductive Mnemonic
  | exit
  | store
  | load
  | add
  | sub
  | branchIf
  | jump
  | display
  deriving DecidableEq, Repr

namespace Mnemonic

/-- All instructions, in the order of the table. -/
def all : List Mnemonic :=
  [exit, store, load, add, sub, branchIf, jump, display]

/-- The word that an instruction is written with, in upper case. -/
def name : Mnemonic → Text
  | exit => "EXIT".toList
  | store => "STORE".toList
  | load => "LOAD".toList
  | add => "ADD".toList
  | sub => "SUB".toList
  | branchIf => "IF".toList
  | jump => "JMP".toList
  | display => "DPR".toList

/-- The opcode: the first byte of the instruction in an image. -/
def opcode : Mnemonic → UInt8
  | exit => 0x00
  | store => 0x01
  | load => 0x02
  | add => 0x03
  | sub => 0x04
  | branchIf => 0x05
  | jump => 0x06
  | display => 0x07

/-- The kinds of the operands, in the order in which they are written. There are as many in the
image, or one less where a target is left out. -/
def operandKinds : Mnemonic → List OperandKind
  | exit => []
  | store => [.register, .immediate]
  | load => [.register, .immediate]
  | add => [.register, .register, .immediate]
  | sub => [.register, .register, .immediate]
  | branchIf => [.register, .immediate, .label]
  | jump => [.label]
  | display => [.register]

/-- The row of the table for an instruction: its opcode and the kinds of its operands. -/
def definition (mnemonic : Mnemonic) : Definition :=
  ⟨mnemonic.name, mnemonic.operandKinds⟩

/-- The instruction that is written with the word `name`, upper and lower case told apart. -/
def ofName? (name : Text) : Option Mnemonic :=
  all.find? fun mnemonic => mnemonic.name = name

/-- The instruction with the given opcode, if there is one. -/
def ofOpcode? (opcode : UInt8) : Option Mnemonic :=
  all.find? fun mnemonic => mnemonic.opcode = opcode

/-- The kinds of the operands that stand in an image. A profile that does not encode targets leaves
out the label. -/
def encodedKinds (mnemonic : Mnemonic) (profile : Profile) : List OperandKind :=
  if profile.encodesTargets then mnemonic.operandKinds
  else mnemonic.operandKinds.filter fun kind => kind ≠ .label

/-- The **length** in an image: a byte for the opcode and one for each operand, a label
counting only where it is encoded. -/
def length (mnemonic : Mnemonic) (profile : Profile) : Nat :=
  mnemonic.operandKinds.foldl (fun length kind =>
    if kind = .label && !profile.encodesTargets then length else length + 1) 1

/-! ### The table is read back -/

theorem ofName?_name (mnemonic : Mnemonic) : ofName? mnemonic.name = some mnemonic := by
  cases mnemonic <;> rfl

theorem ofOpcode?_opcode (mnemonic : Mnemonic) :
    ofOpcode? mnemonic.opcode = some mnemonic := by
  cases mnemonic <;> rfl

theorem opcode_of_ofOpcode? {opcode : UInt8} {mnemonic : Mnemonic}
    (found : ofOpcode? opcode = some mnemonic) : mnemonic.opcode = opcode := by
  unfold ofOpcode? at found
  simpa using List.find?_some found

/-- The length counts the opcode and the operands that stand in the image, under every profile. -/
theorem length_eq (mnemonic : Mnemonic) (profile : Profile) :
    mnemonic.length profile = 1 + (mnemonic.encodedKinds profile).length := by
  cases mnemonic <;> cases h : profile.encodesTargets <;>
    simp [length, encodedKinds, operandKinds, h]

end Mnemonic

end ByteMachine
