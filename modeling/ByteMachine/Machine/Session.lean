import ByteMachine.Files.Error
import ByteMachine.Machine.Run

/-!
# Sessions

Everything that can be asked of a register file, a memory or a machine from outside, as data.
`perform` answers one action and returns what it acted on as the action leaves it, so that a
session is a fold over a list of actions, and a law about all sessions is an induction on
that list. An action that fails changes nothing.
-/

namespace ByteMachine

/-- Why an action **fails**, where it does not end in a fault. A failed action leaves the machine as
it was. -/
inductive ActionError
  | index (error : IndexError)
  | access (error : AccessError)
  | zeroWidth
  | step (error : StepError)
  | file (error : FileError)
  deriving DecidableEq, Repr

def ActionError.message : ActionError → String
  | .index error => error.message
  | .access error => error.message
  | .zeroWidth => "range() arg 3 must not be zero"
  | .step error => error.message
  | .file error => error.message

/-- What an action **answers**, or the error that it fails with. -/
inductive Answer
  | done
  | number (n : Nat)
  | flag (value : Bool)
  | bytes (bytes : List UInt8)
  | text (text : Text)
  | texts (texts : List Text)
  | reason (reason? : Option StopReason)
  | failed (error : ActionError)
  deriving DecidableEq, Repr

/-! ### Registers -/

/-- What can be asked of a **register file** from outside, by integers of any size. -/
inductive Registers.Action
  | read (index : Int)
  | write (index value : Int)
  | valid (index : Int)
  | setPc (pc : Int)
  | reset
  | count
  | display
  | describe
  deriving DecidableEq, Repr

/-- Performs an action on a register file. One that fails leaves it as it is. -/
def Registers.perform (registers : Registers) : Registers.Action → Registers × Answer
  | .read index =>
    match registers.readAt index with
    | .ok value => (registers, .number value.toNat)
    | .error error => (registers, .failed (.index error))
  | .write index value =>
    match registers.writeAt index value with
    | .ok changed => (changed, .done)
    | .error error => (registers, .failed (.index error))
  | .valid index => (registers, .flag (registers.valid index))
  | .setPc pc => ({ registers with pc }, .done)
  | .reset => (registers.reset, .done)
  | .count => (registers, .number registers.count)
  | .display => (registers, .text registers.display)
  | .describe => (registers, .text registers.describe)

/-! ### RAM -/

/-- What can be asked of a **memory** from outside, by integers of any size. -/
inductive Ram.Action
  | read (address : Int)
  | write (address value : Int)
  | load (image : List UInt8)
  | clear
  | contains (address : Int)
  | size
  | dump (start : Int) (stop : Option Int)
  | hexdump (width : Int)
  deriving DecidableEq, Repr

/-- Performs an action on a memory. One that fails leaves it as it is. -/
def Ram.perform (ram : Ram) : Ram.Action → Ram × Answer × Effects
  | .read address =>
    match ram.read address with
    | .ok byte => (ram, .number byte.toNat, {})
    | .error error => (ram, .failed (.access error), {})
  | .write address value =>
    match ram.write address value with
    | .ok changed => (changed, .done, {})
    | .error error => (ram, .failed (.access error), {})
  | .load image =>
    (ram.load image, .number (ram.loadable image), { log := ram.loadLog image })
  | .clear => (ram.clear, .done, {})
  | .contains address => (ram, .flag (ram.contains address), {})
  | .size => (ram, .number ram.size, {})
  | .dump start stop => (ram, .bytes (ram.dump start stop), {})
  | .hexdump width =>
    match ram.hexdump? width with
    | some rows => (ram, .texts rows, {})
    | none => (ram, .failed .zeroWidth, {})

/-! ### Machines -/

/-- What can be asked of a **machine** from outside. A file is given by what came of reading it. -/
inductive Machine.Action
  | load (image : List UInt8)
  | loadFile (contents : Except FileError (List UInt8))
  | step
  /-- At most `limit` steps, or as many as it takes. -/
  | run (limit : Option Int)
  | reset
  | trace (enabled : Bool)
  | traceOutput
  | stopReason
  | display
  | registers (action : Registers.Action)
  | ram (action : Ram.Action)

namespace Machine

/-- What comes of an **action**: the machine that it leaves, the answer, and the effects on the log
and on what is printed. -/
structure Reply where
  machine : Machine
  answer : Answer
  effects : Effects := {}
  deriving DecidableEq, Repr

/-- The reply of a machine that has made steps, or could not and is left as it was. -/
def reply (machine : Machine) : Except StepError Transition → Reply
  | .ok transition =>
    ⟨transition.machine, .reason transition.reason?, transition.effects⟩
  | .error error => ⟨machine, .failed (.step error), {}⟩

/-- The reply of a machine that loads an image: the number of bytes that fit. -/
def loadReply (machine : Machine) (image : List UInt8) : Reply :=
  ⟨machine.load image, .number (machine.ram.loadable image), machine.loadEffects image⟩

/-- **Performs** an action on a machine, as if its method were called from outside. -/
def perform (machine : Machine) : Action → Reply
  | .load image => machine.loadReply image
  | .loadFile (.ok image) => machine.loadReply image
  | .loadFile (.error error) => { machine, answer := .failed (.file error) }
  | .step => machine.reply machine.step
  | .run none => machine.reply machine.run
  | .run (some limit) => machine.reply (machine.runFor limit.toNat)
  | .reset => { machine := machine.reset, answer := .done }
  | .trace enabled => { machine := machine.trace enabled, answer := .done }
  | .traceOutput => { machine, answer := .texts machine.traceLines }
  | .stopReason => { machine, answer := .reason machine.stopReason? }
  | .display => { machine, answer := .text machine.registers.table }
  | .registers action =>
    let (registers, answer) := machine.registers.perform action
    { machine := { machine with registers }, answer }
  | .ram action =>
    let (ram, answer, effects) := machine.ram.perform action
    { machine := { machine with ram }, answer, effects }

/-- Performs actions one after the other, with the replies to all of them. -/
def session (machine : Machine) : List Action → Machine × List Reply
  | [] => (machine, [])
  | action :: actions =>
    let reply := machine.perform action
    let (final, replies) := reply.machine.session actions
    (final, reply :: replies)

end Machine

end ByteMachine
