import ByteMachine.Instruction.Decode
import ByteMachine.Machine.Ram

/-!
# Fetching an instruction

The instruction that the memory holds at an address. The byte there is read first and must be an
opcode. Then the operands are read one at a time, so of operands that are not in the memory the
first missing one is the error.
-/

namespace ByteMachine

/-- Why no instruction is **fetched**: a byte could not be accessed, or it is no opcode. -/
inductive FetchError
  | unknownOpcode (opcode : UInt8) (pc : Int)
  | access (error : AccessError)
  deriving DecidableEq, Repr

/-- The message about an unknown opcode. -/
def unknownOpcodeMessage (opcode : UInt8) (pc : Int) : String :=
  s!"Unknown instruction {String.ofList (Text.address opcode.toNat)} at " ++
    String.ofList (Text.address pc)

def FetchError.message : FetchError → String
  | .unknownOpcode opcode pc => unknownOpcodeMessage opcode pc
  | .access error => error.message

namespace Ram

/-- The instruction whose opcode stands at an address. The byte is read first, and looked up
then. -/
def mnemonicAt (ram : Ram) (pc : Int) : Except FetchError Mnemonic :=
  match ram.read pc with
  | .error error => .error (.access error)
  | .ok opcode =>
    match Mnemonic.ofOpcode? opcode with
    | none => .error (.unknownOpcode opcode pc)
    | some mnemonic => .ok mnemonic

/-- Reads a number of bytes from an address on, **one at a time**. The first that is not there ends
the reading. -/
def readMany (ram : Ram) (address : Int) : Nat → Except AccessError (List UInt8)
  | 0 => .ok []
  | count + 1 =>
    match ram.read address with
    | .error error => .error error
    | .ok byte => (ram.readMany (address + 1) count).map (byte :: ·)

/-- **Fetches** the instruction at an address: the opcode first, then its operands, one byte after
the other. -/
def fetch (ram : Ram) (profile : Profile) (pc : Int) : Except FetchError Instruction := do
  let mnemonic ← ram.mnemonicAt pc
  let operands ←
    (ram.readMany (pc + 1) (mnemonic.encodedKinds profile).length).mapError .access
  match mnemonic.withOperands? profile.encodesTargets operands with
  | some (instruction, _) => return instruction
  -- As many bytes as the instruction has operands are enough, so this is never the case.
  | none => throw (.access (ram.refuse (pc + 1 + operands.length)))

/-- Fetches under a profile that may be unknown. The opcode is looked at before the profile,
and the profile before the operands. -/
def fetchBy (ram : Ram) (choice : ProfileRef) (pc : Int) :
    Except (UnknownProfile ⊕ FetchError) Instruction := do
  let _ ← (ram.mnemonicAt pc).mapError .inr
  let profile ← choice.resolve.mapError .inl
  (ram.fetch profile pc).mapError .inr

end Ram

end ByteMachine
