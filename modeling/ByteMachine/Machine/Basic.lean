import ByteMachine.Machine.Execute

/-!
# The machine

A machine has a profile, registers and RAM, and a state: it is idle until a program is
loaded, runs, and stops for good by halting or by a fault. The fault is kept in a field of its own,
beside the state; that the field is filled exactly in the state of a fault is an invariant of
everything that can be done to a machine (`Machine.Sound`). `Machine.status` is the state together
with its fault, which most laws speak about.

A machine also keeps two histories since the last load or reset: the values that were shown, and the
trace if tracing is on. Both are lists with the **newest entry first**; `observations` and
`traceEntries` give them in order.

What a machine does to its surroundings, printing and logging, is returned beside it as its
`Effects`.
-/

namespace ByteMachine

/-- Why a machine has **stopped**: it has halted, or a fault was met. A step returns it when there
is one. -/
inductive StopReason
  | halt
  | fault
  deriving DecidableEq, Repr

def StopReason.name : StopReason → String
  | .halt => "HALT"
  | .fault => "FAULT"

def StopReason.all : List StopReason := [.halt, .fault]

/-- The **kinds** of faults, as they are listed and printed. A fault of a program is never anything
else. -/
inductive FaultKind
  | invalidRegister
  | unknownInstruction
  | pcOutOfBounds
  deriving DecidableEq, Repr

namespace FaultKind

def all : List FaultKind := [invalidRegister, unknownInstruction, pcOutOfBounds]

def name : FaultKind → String
  | invalidRegister => "INVALID_REGISTER"
  | unknownInstruction => "UNKNOWN_INSTRUCTION"
  | pcOutOfBounds => "PC_OUT_OF_BOUNDS"

def description : FaultKind → String
  | invalidRegister => "invalid register"
  | unknownInstruction => "unknown instruction"
  | pcOutOfBounds => "program counter out of bounds"

end FaultKind

/-- What **causes** a fault, with the data that its message shows. -/
inductive FaultCause
  /-- The byte at the program counter is no opcode. -/
  | unknownOpcode (opcode : UInt8) (pc : Int)
  /-- The program counter or an operand lies outside RAM. -/
  | cutOff (pc : Int) (error : AddressError)
  /-- An instruction names a register that does not exist. -/
  | invalidRegister (register : UInt8) (count : Nat)
  /-- The target of a jump lies outside RAM. -/
  | noTarget (error : AddressError)
  /-- The program counter has left RAM. It does so behind an instruction, and then it is the end of
  RAM, or by a jump, and then it is a byte. So its numeral is never too long. -/
  | outOfBounds (pc : Int)
  deriving DecidableEq, Repr

namespace FaultCause

def kind : FaultCause → FaultKind
  | unknownOpcode .. => .unknownInstruction
  | cutOff .. => .pcOutOfBounds
  | invalidRegister .. => .invalidRegister
  | noTarget _ => .pcOutOfBounds
  | outOfBounds _ => .pcOutOfBounds

/-- The message of a cause, which is part of the fault as it is printed. -/
def message : FaultCause → String
  | unknownOpcode opcode pc => unknownOpcodeMessage opcode pc
  | cutOff pc error =>
    s!"Instruction at {String.ofList (Text.address pc)} runs past end of RAM " ++
      s!"({error.message})"
  | invalidRegister register count =>
    s!"Invalid register index {register.toNat} (have {count})"
  | noTarget error => error.message
  | outOfBounds pc => s!"Program counter out of bounds: {pc}"

/-- The cause that follows from a failed fetch at `pc`. There is none if the fetch has failed
because an address cannot be named. -/
def ofFetch (pc : Int) : FetchError → Except NumeralTooLong FaultCause
  | .unknownOpcode opcode pc => .ok (unknownOpcode opcode pc)
  | .access error => error.named.map (cutOff pc)

end FaultCause

/-- A **fault**: its cause, and the address of the instruction that met it, which is the program
counter before the step. -/
structure Fault where
  cause : FaultCause
  pc : Int
  deriving DecidableEq, Repr

instance : Inhabited Fault :=
  ⟨⟨.outOfBounds 0, 0⟩⟩

/-- The **states** of a machine. The fault of a machine is kept in a field of its own. -/
inductive CpuState
  | idle
  | running
  | halted
  | faulted
  deriving DecidableEq, Repr

namespace CpuState

def all : List CpuState := [idle, running, halted, faulted]

def name : CpuState → String
  | idle => "IDLE"
  | running => "RUNNING"
  | halted => "HALTED"
  | faulted => "FAULTED"

/-- The reason why a machine in this state has stopped, if it has. -/
def stopReason? : CpuState → Option StopReason
  | halted => some .halt
  | faulted => some .fault
  | _ => none

end CpuState

/-- The **status** of a machine: its state, with the fault that belongs to it. It is a view of two
fields of the machine, and no session makes them disagree with it. -/
inductive Status
  | idle
  | running
  | halted
  | faulted (fault : Fault)
  deriving DecidableEq, Repr

namespace Status

/-- The state of a machine of this status, without the fault. -/
def state : Status → CpuState
  | idle => .idle
  | running => .running
  | halted => .halted
  | faulted _ => .faulted

/-- The name of a status is that of its state. -/
def name (status : Status) : String :=
  status.state.name

/-- The reason why a machine of this status has stopped, if it has. -/
def stopReason? (status : Status) : Option StopReason :=
  status.state.stopReason?

/-- The fault of a machine of this status, if it has stopped with one. -/
def fault? : Status → Option Fault
  | faulted fault => some fault
  | _ => none

end Status

/-- An **entry of the trace**: an instruction before it is executed, with its address and the
registers, or a fault. -/
inductive TraceEntry
  | instruction (pc : Int) (fetched : Instruction) (registers : Registers)
  | fault (cause : FaultCause)
  deriving DecidableEq, Repr

/-- An entry of the trace as a line: an instruction with the registers in front of it, or a
fault. -/
def TraceEntry.line : TraceEntry → Text
  | .instruction pc fetched registers =>
    Text.address pc ++ ": ".toList ++ Text.padRight 16 fetched.format ++
      ' ' :: registers.display
  | .fault cause => "  FAULT: ".toList ++ cause.message.toList

/-- The **machine**: its registers and its memory, the state that it is in, and what it has shown
and recorded. -/
structure Machine where
  profile : Profile
  registers : Registers
  ram : Ram
  state : CpuState := .idle
  /-- The fault that has stopped the machine. -/
  fault : Option Fault := none
  /-- The values shown, newest first. -/
  shown : List (UInt8 × UInt8) := []
  tracing : Bool := false
  /-- The trace, newest first. -/
  traced : List TraceEntry := []
  deriving DecidableEq, Repr

namespace Machine

/-- The **observations** in order: the registers shown, each with its value. They are stored with
the last one first. -/
def observations (machine : Machine) : List (UInt8 × UInt8) :=
  machine.shown.reverse

/-- The entries of the **trace** in order, the first one first. They are stored the other way
round. -/
def traceEntries (machine : Machine) : List TraceEntry :=
  machine.traced.reverse

def traceLines (machine : Machine) : List Text :=
  machine.traceEntries.map TraceEntry.line

/-- The status, which joins state and fault. A machine in the state of a fault has one: see
`Machine.Sound`. -/
def status (machine : Machine) : Status :=
  match machine.state with
  | .idle => .idle
  | .running => .running
  | .halted => .halted
  | .faulted => .faulted (machine.fault.getD default)

/-- The reason why the machine has stopped, read off its state. -/
def stopReason? (machine : Machine) : Option StopReason :=
  machine.state.stopReason?

/-- An idle machine of the given sizes, whose registers and memory hold zeros. It has no program, so
it cannot make a step. -/
def zeroed (profile : Profile) (registerCount ramSize : Nat) : Machine :=
  { profile, registers := Registers.zeroed registerCount, ram := Ram.zeroed ramSize }

/-- Makes a machine. The profile is looked up first, then the number of registers is
checked, then the size of RAM. -/
def create (choice : ProfileRef) (registerCount ramSize : Int) :
    Except (UnknownProfile ⊕ SizeError) Machine := do
  let profile ← choice.resolve.mapError .inl
  let registers ← (Registers.create registerCount).mapError .inr
  let ram ← (Ram.create ramSize).mapError .inr
  return { profile, registers, ram }

end Machine

/-- The **effects** of a machine on its surroundings: what it printed and what it logged. -/
structure Effects where
  printed : Text := []
  log : List LogRecord := []
  deriving DecidableEq, Repr

namespace Effects

/-- Effects that follow others: the log and what is printed are put one behind the other. -/
def append (first second : Effects) : Effects :=
  ⟨first.printed ++ second.printed, first.log ++ second.log⟩

def concat (effects : List Effects) : Effects :=
  ⟨effects.flatMap printed, effects.flatMap log⟩

end Effects

/-- The name under which the machine logs. -/
def machineLogSource : String := "soc8_emulator.emu"

/-- A record of the machine. -/
def machineLog (level : LogLevel) (message : String) : Effects :=
  { log := [⟨level, machineLogSource, message⟩] }

end ByteMachine
