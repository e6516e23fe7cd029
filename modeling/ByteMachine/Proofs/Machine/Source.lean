import ByteMachine.Proofs.Source.Written

/-!
# The source machine

What a program means, said without bytes. The source machine executes written instructions one
after the other: its program counter is the index of an instruction, a label goes to an index, a
register holds an integer from 0 to 255, and arithmetic is that of the integers modulo 256.

It stops in three ways. It halts at `EXIT`, and behind the last instruction, where there is
`room` for what memory holds there. It faults at an instruction that needs a register which does
not exist, and then has changed nothing. And it faults where it goes on behind the last
instruction without room.
-/

namespace ByteMachine

/-- The **status** of a source machine, with the reason why it has stopped. There is nothing in it
about addresses or bytes. -/
inductive SourceStatus
  | running
  | halted
  /-- The instruction needs a register that does not exist. -/
  | invalidRegister (register : UInt8)
  /-- The instruction of index `last` has gone on behind the last instruction, without room. -/
  | pastEnd (last : Nat)
  deriving DecidableEq, Repr

/-- The **source machine**: the index of the instruction to execute, the values of the registers,
and what was shown so far. -/
structure SourceMachine where
  index : Nat
  values : List Int
  observations : List (UInt8 × Int)
  status : SourceStatus
  deriving DecidableEq, Repr

/-- A **source program**: its instructions, the index that each label goes to, and whether there is
room behind the last instruction. -/
structure SourceProgram where
  instructions : List Written
  indexOf : Text → Nat
  room : Bool

namespace SourceMachine

/-- The source machine as it **starts**: at the first instruction, with zeros in all registers. -/
def start (registerCount : Nat) : SourceMachine :=
  ⟨0, List.replicate registerCount 0, [], .running⟩

/-- The machine stopped where it stands, which leaves everything but the status. -/
def stop (machine : SourceMachine) (status : SourceStatus) : SourceMachine :=
  { machine with status }

/-- A register set to a value, or no change if the register does not exist. -/
def set (machine : SourceMachine) (register : UInt8) (value : Int) : SourceMachine :=
  { machine with values := machine.values.set register.toNat value }

/-- One more value **shown**, behind those that were shown before, with the register that it was
in. -/
def observe (machine : SourceMachine) (register : UInt8) (value : Int) : SourceMachine :=
  { machine with observations := machine.observations ++ [(register, value)] }

end SourceMachine

namespace SourceProgram

/-- **Goes on** at an index, which needs an instruction there or room behind the last one. -/
def goTo (program : SourceProgram) (machine : SourceMachine) (index : Nat) : SourceMachine :=
  if index < program.instructions.length ∨ program.room = true then { machine with index }
  else { machine with index, status := .pastEnd machine.index }

/-- Changes a register by another one and a value, modulo 256, and goes on at the next
instruction. -/
def combine (program : SourceProgram) (machine : SourceMachine) (target source : UInt8)
    (f : Int → Int → Int) : SourceMachine :=
  match machine.values[target.toNat]?, machine.values[source.toNat]? with
  | none, _ => machine.stop (.invalidRegister target)
  | some _, none => machine.stop (.invalidRegister source)
  | some old, some other =>
    program.goTo (machine.set target (f old other % 256)) (machine.index + 1)

/-- Puts a value into a register and goes on at the next instruction. -/
def assign (program : SourceProgram) (machine : SourceMachine) (register value : UInt8) :
    SourceMachine :=
  match machine.values[register.toNat]? with
  | none => machine.stop (.invalidRegister register)
  | some _ => program.goTo (machine.set register value.toNat) (machine.index + 1)

/-- **Executes** an instruction as it is written, with its label looked up in the program. -/
def execute (program : SourceProgram) (machine : SourceMachine) : Written → SourceMachine
  | .exit => machine.stop .halted
  | .store register value => program.assign machine register value
  | .load register value => program.assign machine register value
  | .add target source value =>
    program.combine machine target source fun old other => old + other + value.toNat
  | .sub target source value =>
    program.combine machine target source fun old other => old - other - value.toNat
  | .branchIf register value label =>
    if machine.values[register.toNat]? = some (value.toNat : Int) then
      program.goTo machine (program.indexOf label)
    else program.goTo machine (machine.index + 1)
  | .jump label => program.goTo machine (program.indexOf label)
  | .display register =>
    match machine.values[register.toNat]? with
    | some value => program.goTo (machine.observe register value) (machine.index + 1)
    | none => program.goTo machine (machine.index + 1)

/-- One **step**. Behind the last instruction the machine halts; a machine that has stopped stays
as it is. -/
def step (program : SourceProgram) (machine : SourceMachine) : SourceMachine :=
  match machine.status with
  | .running =>
    match program.instructions[machine.index]? with
    | some written => program.execute machine written
    | none => machine.stop .halted
  | _ => machine

/-- A number of **steps**, one after the other. A machine that has stopped stays where it is. -/
def stepTimes (program : SourceProgram) : Nat → SourceMachine → SourceMachine
  | 0, machine => machine
  | steps + 1, machine => program.stepTimes steps (program.step machine)

end SourceProgram

end ByteMachine
