import ByteMachine.Instruction.Decode

/-!
# Disassembly

An image read back from its first byte to its last. Each row shows an instruction, or one
byte of data where no instruction can be read: because the byte is no opcode, or because the
instruction would go on behind the end of the image. Reading goes on behind what was shown,
so that every byte of the image stands in exactly one row.
-/

namespace ByteMachine

/-- A **row** of a disassembly: the offset, the bytes shown, and the instruction that they
are, or `none` for a byte of data. -/
structure DisassemblyRow where
  offset : Nat
  bytes : List UInt8
  instruction? : Option Instruction
  deriving DecidableEq, Repr

/-- What a row shows behind its bytes: the instruction, or the byte as data. -/
def DisassemblyRow.meaning (row : DisassemblyRow) : Text :=
  match row.instruction? with
  | some instruction => instruction.format
  | none => "DB ".toList ++ row.bytes.flatMap fun byte => Text.address byte.toNat

/-- A row as text: its offset, its bytes in a column of twelve characters, and its meaning. -/
def DisassemblyRow.text (row : DisassemblyRow) : Text :=
  Text.address row.offset ++ ": ".toList ++ Text.padRight 12 (Text.hexRow row.bytes) ++
    "  ".toList ++ row.meaning

/-- Behind a decoded instruction less is left, which is why a disassembly ends. -/
theorem length_lt_of_decode {targets : Bool} {bytes rest : List UInt8}
    {instruction : Instruction} (decoded : decode targets bytes = .instruction instruction rest) :
    rest.length < bytes.length := by
  obtain ⟨_, rfl⟩ := decode_eq_instruction_iff.1 decoded
  simp only [Instruction.bytes, List.length_append, List.length_cons]
  omega

/-- The rows of the bytes that stand at `offset`. A byte that begins no whole instruction is a row
of its own. -/
def disassembleFrom (targets : Bool) (offset : Nat) (bytes : List UInt8) :
    List DisassemblyRow :=
  match bytes with
  | [] => []
  | byte :: following =>
    match _decoded : decode targets (byte :: following) with
    | .instruction instruction rest =>
      ⟨offset, instruction.bytes, some instruction⟩ ::
        disassembleFrom targets (offset + instruction.length) rest
    | _ => ⟨offset, [byte], none⟩ :: disassembleFrom targets (offset + 1) following
termination_by bytes.length
decreasing_by
  · exact length_lt_of_decode _decoded
  · simp

/-- **Disassembles** an image, under the encoding of a profile. Every byte of the image is in one
row. -/
def disassemble (profile : Profile) (image : List UInt8) : List DisassemblyRow :=
  disassembleFrom profile.encodesTargets 0 image

/-- Whether a byte is an opcode. -/
def isOpcode (byte : UInt8) : Bool :=
  (Mnemonic.ofOpcode? byte).isSome

/-- Disassembles under a profile that may be unknown. It is asked for only where an opcode is
met, so an image without one is shown in any case. -/
def disassembleBy (choice : ProfileRef) (image : List UInt8) :
    Except UnknownProfile (List DisassemblyRow) :=
  match choice.resolve with
  | .ok profile => .ok (disassemble profile image)
  | .error error =>
    if image.any isOpcode then .error error else .ok (disassemble Profile.default image)

end ByteMachine
