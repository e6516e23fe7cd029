import ByteMachine.Machine.Basic

/-!
# Loading and stepping

Loading resets the machine, puts the image into RAM and starts it at address zero. A step of
a running machine fetches an instruction, writes it to the trace if tracing is on, and
executes it.

A fault stops the machine at one of three points: no instruction can be fetched, the
instruction cannot be executed, or the instruction is done and has left the program counter
outside RAM. Only in the last case has the machine changed. A machine that has stopped does
not change any more.

A step that has to tell an address which is too long for a numeral is not made. That happens only to
a machine whose program counter was set from outside; see `advance`.
-/

namespace ByteMachine

/-- Why **no step** is made: nothing was loaded, or the error about the program counter could not be
written. -/
inductive StepError
  /-- The machine has no program. -/
  | notLoaded
  /-- The message of a fault would have to name an address that is too long. -/
  | unnamed (error : NumeralTooLong)
  deriving DecidableEq, Repr

def StepError.message : StepError → String
  | .notLoaded => "No program loaded"
  | .unnamed error => error.message

/-- The outcome of a step or a run: the machine, the reason if it has stopped, and the
effects. -/
structure Transition where
  machine : Machine
  reason? : Option StopReason
  effects : Effects
  deriving DecidableEq, Repr

/-- What a report prints: a line for a register that is shown, and nothing else. -/
def Report.printed : Report → Text
  | .observed register value =>
    "Register R".toList ++ Text.decimal register.toNat ++ ": ".toList ++
      Text.decimal value.toNat ++ ['\n']
  | _ => []

/-- What a report does to the surroundings: it prints a line, or logs that a register does not
exist. -/
def Report.effects (report : Report) : Effects :=
  match report with
  | .noRegister register =>
    machineLog .error s!"Invalid register index {register.toNat}"
  | _ => { printed := report.printed }

namespace Machine

/-! ### Loading -/

/-- Back to an **idle** machine with zeros in its registers and RAM and without histories.
Tracing stays as it is. -/
def reset (machine : Machine) : Machine :=
  { machine with
    registers := machine.registers.reset
    ram := machine.ram.clear
    state := .idle
    fault := none
    shown := []
    traced := [] }

/-- **Loads** an image and starts it at address zero, with all registers cleared. Tracing is left on
or off. -/
def load (machine : Machine) (image : List UInt8) : Machine :=
  let machine := machine.reset
  { machine with
    ram := machine.ram.load image
    registers := machine.registers.goTo 0
    state := .running }

/-- The effects of loading an image. -/
def loadEffects (machine : Machine) (image : List UInt8) : Effects :=
  let loaded : LogRecord :=
    ⟨.debug, machineLogSource,
      s!"Loaded {machine.ram.loadable image} byte(s), profile {machine.profile.name}"⟩
  { log := machine.ram.loadLog image ++ [loaded] }

def trace (machine : Machine) (enabled : Bool) : Machine :=
  { machine with tracing := enabled }

/-! ### Stepping -/

/-- Adds an entry to the trace if tracing is on, and nothing otherwise. -/
def record (machine : Machine) (entry : TraceEntry) : Machine :=
  if machine.tracing then { machine with traced := entry :: machine.traced } else machine

/-- Adds what a report shows to the observations, behind those that are there. -/
def observe (machine : Machine) (report : Report) : Machine :=
  match report with
  | .observed register value => { machine with shown := (register, value) :: machine.shown }
  | _ => machine

/-- **Stops** the machine with a fault of the instruction at `pc`, behind the given
effects. -/
def stopWith (machine : Machine) (pc : Int) (cause : FaultCause) (before : Effects := {}) :
    Transition :=
  let logged :=
    machineLog .error s!"Fault at {String.ofList (Text.address pc)}: {cause.message}"
  { machine :=
      { machine.record (.fault cause) with state := .faulted, fault := some ⟨cause, pc⟩ }
    reason? := some .fault
    effects := before.append logged }

/-- The registers after one more step. Only an instruction that was executed in full counts, `EXIT`
among them. -/
def countStep (registers : Registers) : Registers :=
  { registers with steps := registers.steps + 1 }

/-- One step of a machine that **runs**. It fails, and changes nothing, where the message of a fault
cannot be written. -/
def advance (machine : Machine) : Except NumeralTooLong Transition :=
  let pc := machine.registers.pc
  match machine.ram.fetch machine.profile pc with
  | .error error => (FaultCause.ofFetch pc error).map (machine.stopWith pc ·)
  | .ok instruction =>
    let machine := machine.record (.instruction pc instruction machine.registers)
    match instruction.execute machine.ram machine.registers with
    | .halt =>
      .ok {
        machine :=
          { machine with registers := countStep machine.registers, state := .halted }
        reason? := some .halt
        effects := machineLog .info "Program exited." }
    | .invalidRegister register =>
      .ok (machine.stopWith pc (.invalidRegister register machine.registers.count))
    | .noTarget error => error.named.map fun error => machine.stopWith pc (.noTarget error)
    | .next registers report =>
      let machine := { machine.observe report with registers := countStep registers }
      if machine.ram.contains registers.pc then .ok ⟨machine, none, report.effects⟩
      else .ok (machine.stopWith pc (.outOfBounds registers.pc) report.effects)

/-- One **step**. A machine that has stopped stays as it is, and one without a program fails. -/
def step (machine : Machine) : Except StepError Transition :=
  match machine.state with
  | .idle => .error .notLoaded
  | .running => machine.advance.mapError .unnamed
  | _ => .ok ⟨machine, machine.stopReason?, {}⟩

end Machine

end ByteMachine
