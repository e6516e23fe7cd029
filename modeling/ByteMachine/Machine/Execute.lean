import ByteMachine.Machine.Fetch

/-!
# What an instruction does

The effect of one fetched instruction on the registers and the program counter. No
instruction writes to RAM; a jump whose target the image does not carry reads it from there.

* `store` and `load` put a value into a register.
* `add` and `sub` change their first register by their second one and a value, modulo 256.
* `branchIf` goes to its target if the register holds the value, and on otherwise. A register
  that does not exist holds no value, and a branch without its target always goes on.
* `jump` goes to its target.
* `display` shows a register. For one that does not exist it only leaves a record.

`store`, `load`, `add` and `sub` need all of their registers, and fail before they change
anything.
-/

namespace ByteMachine

/-- What an instruction **shows**: nothing, the value of a register, or that the register it
names does not exist. -/
inductive Report
  | silent
  | observed (register value : UInt8)
  | noRegister (register : UInt8)
  deriving DecidableEq, Repr

/-- What comes of **executing** an instruction: new registers with a report, a halt, or what was
missing. -/
inductive Execution
  | halt
  /-- The instruction names a register that does not exist. -/
  | invalidRegister (register : UInt8)
  /-- The target of a jump lies outside RAM. -/
  | noTarget (error : AccessError)
  /-- The instruction is done; the program counter stands at the next one. -/
  | next (registers : Registers) (report : Report)
  deriving DecidableEq, Repr

namespace Registers

/-- The registers with the program counter at an address. -/
def goTo (registers : Registers) (pc : Int) : Registers :=
  { registers with pc }

/-- Puts a value into a register that must exist, and goes on behind the three bytes of the
instruction. -/
def assign (registers : Registers) (register value : UInt8) : Execution :=
  match registers.get? register with
  | none => .invalidRegister register
  | some _ => .next ((registers.set register value).goTo (registers.pc + 3)) .silent

/-- Changes a register by another one, both of which must exist, and goes on behind the four bytes
of the instruction. -/
def combine (registers : Registers) (target source : UInt8) (f : UInt8 → UInt8 → UInt8) :
    Execution :=
  match registers.get? target, registers.get? source with
  | none, _ => .invalidRegister target
  | some _, none => .invalidRegister source
  | some old, some other =>
    .next ((registers.set target (f old other)).goTo (registers.pc + 4)) .silent

end Registers

/-- **Executes** an instruction that was fetched at the program counter. A branch is one byte longer
where it carries its target. -/
def Instruction.execute (ram : Ram) (registers : Registers) (instruction : Instruction) :
    Execution :=
  match instruction with
  | .exit => .halt
  | .store register value => registers.assign register value
  | .load register value => registers.assign register value
  | .add target source value =>
    registers.combine target source fun old other => old + other + value
  | .sub target source value =>
    registers.combine target source fun old other => old - other - value
  | .branchIf register value (some address) =>
    if registers.get? register = some value then .next (registers.goTo address.toNat) .silent
    else .next (registers.goTo (registers.pc + 4)) .silent
  | .branchIf _ _ none => .next (registers.goTo (registers.pc + 3)) .silent
  | .jump (some address) => .next (registers.goTo address.toNat) .silent
  | .jump none =>
    match ram.read (registers.pc + 1) with
    | .ok address => .next (registers.goTo address.toNat) .silent
    | .error error => .noTarget error
  | .display register =>
    let behind := registers.goTo (registers.pc + 2)
    match registers.get? register with
    | some value => .next behind (.observed register value)
    | none => .next behind (.noRegister register)

end ByteMachine
