import ByteMachine.Assembler
import ByteMachine.Files.Disk
import ByteMachine.Machine.Run
import ByteMachine.Text.Utf8

/-!
# The toolchain

The parts put together: program text read from a file, assembled under a profile chosen by
name, and an image run on a new machine. Which of two errors wins is decided by the order of
the steps: a file is read before the profile is looked up, and the profile is looked up
before the text is read.
-/

namespace ByteMachine

def version : String := "0.2.0"

/-- What can go **wrong** between a request and its result, in the order in which it is met. -/
inductive ToolError
  | profile (error : UnknownProfile)
  | size (error : SizeError)
  | file (error : FileError)
  | encoding (fault : Utf8.Fault)
  | assembly (failure : Failure)
  | step (error : StepError)
  deriving DecidableEq, Repr

def ToolError.message : ToolError → String
  | .profile error => error.message
  | .size error => error.message
  | .file error => error.message
  | .encoding fault => fault.message
  | .assembly failure => failure.message
  | .step error => error.message

/-- A result with the **log** that was written on the way to it, whether it is a success or not. -/
structure Logged (α : Type) where
  log : List LogRecord
  result : Except ToolError α

/-! ### The instruction table -/

/-- What is looked up and **not found** in a question about the instruction table. -/
inductive LookupError
  | mnemonic (name : Text)
  | profile (error : UnknownProfile)
  deriving DecidableEq, Repr

def LookupError.message : LookupError → String
  | .mnemonic name => String.ofList (Text.quoted name)
  | .profile error => error.message

/-- The **length** of an instruction in an image and the kinds of the operands that the image
holds. The name is looked up before the profile. -/
def instructionLayout (name : Text) (choice : ProfileRef) :
    Except LookupError (Nat × List OperandKind) :=
  match Mnemonic.ofName? name with
  | none => .error (.mnemonic name)
  | some mnemonic =>
    match choice.resolve with
    | .error error => .error (.profile error)
    | .ok profile => .ok (mnemonic.length profile, mnemonic.encodedKinds profile)

/-! ### Decoding -/

/-- Why no instruction is **decoded** at an address of an image in RAM. -/
inductive DecodeError
  | size (error : SizeError)
  | profile (error : UnknownProfile)
  | fetch (error : FetchError)
  deriving DecidableEq, Repr

def DecodeError.message : DecodeError → String
  | .size error => error.message
  | .profile error => error.message
  | .fetch error => error.message

/-- The **instruction** at an address of an image that is loaded into RAM of a given size. -/
def instructionAt (choice : ProfileRef) (image : List UInt8) (ramSize pc : Int) :
    Except DecodeError Instruction := do
  let ram ← (Ram.create ramSize).mapError .size
  ((ram.load image).fetchBy choice pc).mapError fun
    | .inl error => .profile error
    | .inr error => .fetch error

/-! ### Assembling -/

/-- The program text in the contents of a file, which must be UTF-8. -/
def sourceText (bytes : List UInt8) : Except Utf8.Fault Text :=
  (Utf8.decode bytes).map Text.unifyLineEnds

/-- **Assembles** under a chosen profile. The result is the assembler, which holds the image
and its context. -/
def assembleBy (choice : ProfileRef) (source : Text) (maxLabels : Int := defaultMaxLabels)
    (maxProgramSize : Int := defaultMaxProgramSize) : Logged Assembler :=
  match choice.resolve with
  | .error error => ⟨[], .error (.profile error)⟩
  | .ok profile =>
    let (assembler, assembly) :=
      ({ profile, maxLabels, maxProgramSize } : Assembler).run source
    ⟨assembly.log, (assembly.result.map fun _ => assembler).mapError .assembly⟩

/-- Assembles the program text in a **file**, whose errors are told apart from those of the text. -/
def assembleFile (disk : Disk) (path : Text) (choice : ProfileRef) : Logged Assembler :=
  match disk.read path with
  | .error error => ⟨[], .error (.file error)⟩
  | .ok bytes =>
    match sourceText bytes with
    | .error fault => ⟨[], .error (.encoding fault)⟩
    | .ok source => assembleBy choice source

/-! ### Running -/

/-- How an image is **run**: the machine, whether it traces, and how many steps it may
make. -/
structure RunSettings where
  profile : ProfileRef
  registerCount : Int := defaultRegisterCount
  ramSize : Int := defaultRamSize
  tracing : Bool := false
  limit : Option Int := none

/-- What comes of a **run**: the image, the number of its bytes that were loaded, and how the
machine ended. -/
structure Launch where
  image : List UInt8
  loaded : Nat
  ending : Transition

/-- Runs an image on a new machine, which may not be possible to make. -/
def launch (settings : RunSettings) (image : List UInt8) : Except ToolError Launch := do
  let machine ← (Machine.create settings.profile settings.registerCount
    settings.ramSize).mapError fun
      | .inl error => .profile error
      | .inr error => .size error
  let started := (machine.load image).trace settings.tracing
  let outcome := match settings.limit with
    | none => started.run
    | some limit => started.runFor limit.toNat
  let ending ← outcome.mapError .step
  return {
    image
    loaded := machine.ram.loadable image
    ending :=
      { ending with effects := (machine.loadEffects image).append ending.effects } }

/-- A run with its log, which is that of loading the image and of the steps. -/
def loggedLaunch (settings : RunSettings) (image : List UInt8) : Logged Launch :=
  match launch settings image with
  | .error error => ⟨[], .error error⟩
  | .ok launch => ⟨launch.ending.effects.log, .ok launch⟩

/-- Assembles a program text and runs its image on a new machine. -/
def assembleAndRun (settings : RunSettings) (source : Text) : Logged Launch :=
  let assembled := assembleBy settings.profile source
  match assembled.result with
  | .error error => ⟨assembled.log, .error error⟩
  | .ok assembler =>
    let run := loggedLaunch settings assembler.image
    ⟨assembled.log ++ run.log, run.result⟩

end ByteMachine
