import ByteMachine.Instruction.Basic

/-!
# Decoding

Reading the instruction at the front of a list of bytes. One decoder serves the machine and
the disassembler, so the two cannot disagree about what an image says; each of them decides
for itself what an unknown opcode or an instruction cut off at the end means.

Main results:

* `decode_bytes_append`: the bytes of an instruction, whatever follows them, decode to it.
* `decode_eq_instruction_iff`: and nothing else does.
-/

namespace ByteMachine

/-- What stands at the front of a list of bytes: an instruction, a byte of data, or nothing. -/
inductive Decoded
  /-- An instruction, and the bytes behind it. -/
  | instruction (instruction : Instruction) (rest : List UInt8)
  /-- A first byte that is no opcode. -/
  | unknown (opcode : UInt8)
  /-- An instruction that is cut off by the end of the bytes. -/
  | truncated
  deriving DecidableEq, Repr

/-- Reads the operands of an instruction, if all of them are there. `targets` says whether a
branch carries its target. -/
def Mnemonic.withOperands? (targets : Bool) :
    Mnemonic → List UInt8 → Option (Instruction × List UInt8)
  | .exit, rest => some (.exit, rest)
  | .store, register :: value :: rest => some (.store register value, rest)
  | .load, register :: value :: rest => some (.load register value, rest)
  | .add, target :: source :: value :: rest => some (.add target source value, rest)
  | .sub, target :: source :: value :: rest => some (.sub target source value, rest)
  | .branchIf, register :: value :: rest =>
    match targets, rest with
    | false, rest => some (.branchIf register value none, rest)
    | true, address :: rest => some (.branchIf register value (some address), rest)
    | true, [] => none
  | .jump, rest =>
    match targets, rest with
    | false, rest => some (.jump none, rest)
    | true, address :: rest => some (.jump (some address), rest)
    | true, [] => none
  | .display, register :: rest => some (.display register, rest)
  | _, _ => none

/-- **Decodes** the instruction at the front of `bytes`, with its target if the encoding carries
one. -/
def decode (targets : Bool) (bytes : List UInt8) : Decoded :=
  match bytes with
  | [] => .truncated
  | opcode :: rest =>
    match Mnemonic.ofOpcode? opcode with
    | none => .unknown opcode
    | some mnemonic =>
      match mnemonic.withOperands? targets rest with
      | some (instruction, rest) => .instruction instruction rest
      | none => .truncated

/-- An instruction **fits** an encoding when its target is there exactly if it should be. -/
def Instruction.Fits (targets : Bool) : Instruction → Prop
  | .branchIf _ _ address => address.isSome = targets
  | .jump address => address.isSome = targets
  | _ => True

/-- The length of an instruction that fits is that of the table, under the profile that it fits. -/
theorem Instruction.Fits.length_eq {profile : Profile} {instruction : Instruction}
    (fits : instruction.Fits profile.encodesTargets) :
    instruction.length = instruction.mnemonic.length profile := by
  rw [Mnemonic.length_eq, Mnemonic.encodedKinds]
  cases instruction with
  | branchIf register value address => cases address <;> rw [← show _ = _ from fits] <;> rfl
  | jump address => cases address <;> rw [← show _ = _ from fits] <;> rfl
  | _ => cases profile.encodesTargets <;> rfl

/-- The bytes of an instruction decode to it, whatever follows them: this is the round trip for one
instruction. -/
theorem decode_bytes_append {targets : Bool} {instruction : Instruction}
    (fits : instruction.Fits targets) (rest : List UInt8) :
    decode targets (instruction.bytes ++ rest) = .instruction instruction rest := by
  cases instruction with
  | branchIf register value address =>
    cases address <;> subst fits <;> rfl
  | jump address => cases address <;> subst fits <;> rfl
  | _ => rfl

/-- The operands that are read stood at the front of the bytes, and the rest is what stood behind
them. -/
theorem Mnemonic.eq_append_of_withOperands? {targets : Bool} {mnemonic : Mnemonic}
    {bytes rest : List UInt8} {instruction : Instruction}
    (read : mnemonic.withOperands? targets bytes = some (instruction, rest)) :
    instruction.mnemonic = mnemonic ∧ instruction.Fits targets ∧
      bytes = instruction.operands ++ rest := by
  unfold withOperands? at read
  split at read <;> (try split at read) <;> cases read <;>
    simp [Instruction.mnemonic, Instruction.Fits, Instruction.operands, Instruction.fields]

/-- Decoding gives an instruction **exactly** when its bytes stand in front. So nothing else is
decoded to it. -/
theorem decode_eq_instruction_iff {targets : Bool} {bytes rest : List UInt8}
    {instruction : Instruction} :
    decode targets bytes = .instruction instruction rest ↔
      instruction.Fits targets ∧ bytes = instruction.bytes ++ rest := by
  refine ⟨fun decoded => ?_, fun ⟨fits, eq⟩ => eq ▸ decode_bytes_append fits rest⟩
  unfold decode at decoded
  split at decoded
  · cases decoded
  · split at decoded
    · cases decoded
    · rename_i found
      split at decoded
      · rename_i read
        cases decoded
        obtain ⟨same, fits, eq⟩ := Mnemonic.eq_append_of_withOperands? read
        exact ⟨fits, by simp [Instruction.bytes, same, Mnemonic.opcode_of_ofOpcode? found, eq]⟩
      · cases decoded

end ByteMachine
