import ByteMachine.Disassembly
import ByteMachine.Proofs.Assembly.Image

/-!
# Disassembling an assembled program

An image that comes from an assembly is read back instruction by instruction. The disassembler
does not know where instructions begin. It finds out, because it begins where the first one does
and goes on behind every instruction that it reads: decoding the bytes of an instruction gives
that instruction and what is behind it. The rows are therefore those of the listing.

`Written.shown` is what a row then shows of a written instruction: its operands in the order in
which they are written, a label as its address where the image carries that.

## Main results

* `disassembleFrom_imageOf`: the rows of an image are the lines laid out.
* `disassemble_assembled`: the rows of an assembled program.
-/

namespace ByteMachine

/-! ### What is shown -/

/-- A value as it is **shown**, if it stands in the image: a label by its address. -/
def Value.shown (targets : Bool) (address : Text → Int) : Value → Option Text
  | register index => some ('R' :: Text.decimal index.toNat)
  | immediate value => some (Text.decimal value.toNat)
  | label name => if targets then some (Text.address (address name)) else none

/-- A written instruction as it is **shown**: its name, and behind a space the values with
commas between them. -/
def Written.shown (targets : Bool) (address : Text → Int) (written : Written) : Text :=
  match written.values.filterMap (Value.shown targets address) with
  | [] => written.mnemonic.name
  | operands => written.mnemonic.name ++ ' ' :: Text.joinWith [',', ' '] operands

/-- The address of a label of the table, zero for any other name. -/
def Context.addressOf (context : Context) (name : Text) : Int :=
  match context.label? name with
  | some label => label.address
  | none => 0

/-- The printed form of an encoding is what the instruction is shown as, if the bytes of its
labels are their addresses. -/
theorem format_encode {targets : Bool} {byteOf : Text → UInt8} {address : Text → Int}
    {written : Written} (same : targets = true → ∀ name, written.label? = some name →
      ((byteOf name).toNat : Int) = address name) :
    (written.encode targets byteOf).format = written.shown targets address := by
  cases written with
  | jump name =>
      cases targets with
      | false => rfl
      | true =>
          rw [Written.shown, Written.values, List.filterMap_cons, Value.shown]
          simp only [if_true, ← same rfl name rfl]
          rfl
  | branchIf register value name =>
      cases targets with
      | false => rfl
      | true =>
          simp only [Written.shown, Written.values, List.filterMap_cons, Value.shown, if_true,
            ← same rfl name rfl]
          rfl
  | _ => rfl

/-! ### Reading an image -/

/-- The disassembler reads the instruction in front and goes on behind it. -/
theorem disassembleFrom_bytes_append {targets : Bool} {instruction : Instruction}
    (fits : instruction.Fits targets) (offset : Nat) (rest : List UInt8) :
    disassembleFrom targets offset (instruction.bytes ++ rest) =
      ⟨offset, instruction.bytes, some instruction⟩ ::
        disassembleFrom targets (offset + instruction.length) rest := by
  have decoded := decode_bytes_append fits rest
  rw [Instruction.bytes, List.cons_append] at decoded ⊢
  rw [disassembleFrom]
  split
  · rename_i read behind met
    rw [decoded] at met
    cases met
    rfl
  · -- A row of data would need that nothing is decoded.
    rename_i met
    exact absurd decoded (met _ _)

/-- The rows of an image are the lines **laid out**, each with the encoding of its instruction. By
induction on the lines, where the offset grows with each of them. -/
theorem disassembleFrom_imageOf {context : Context} {offset : Nat} {lines : List Line}
    {program : List Written} (same : lines.length = program.length) :
    disassembleFrom context.profile.encodesTargets offset
        (imageOf context.profile.encodesTargets context.byteOf program) =
      List.zipWith (fun encoded written =>
          ⟨encoded.entry.address, encoded.entry.bytes,
            some (written.encode context.profile.encodesTargets context.byteOf)⟩)
        (layOut context offset lines program) program := by
  induction program generalizing offset lines with
  | nil =>
      rw [imageOf, List.flatMap_nil, disassembleFrom, List.zipWith_nil_right]
  | cons written program ih =>
      obtain ⟨line, lines, rfl⟩ := List.exists_cons_of_length_eq_add_one same
      rw [imageOf, List.flatMap_cons,
        disassembleFrom_bytes_append (written.fits_encode _ _), Written.length_encode, layOut,
        List.zipWith_cons_cons]
      exact congrArg (_ :: ·) (ih (Nat.succ.inj same))

/-! ### Assembled programs -/

namespace Assembles

variable {profile : Profile} {maxLabels : Int} {source : Text} {program : List Written}
  {context : Context} (assembles : Assembles profile maxLabels source program context)

include assembles

/-- The rows of an assembled program are the entries of its listing, each with the encoding
of its instruction. -/
theorem disassemble_eq :
    disassemble profile context.program =
      List.zipWith (fun entry written => ⟨entry.address, entry.bytes,
          some (written.encode profile.encodesTargets context.byteOf)⟩)
        context.listing program := by
  let placing := Context.placing profile maxLabels (sourceLines source)
  have bytes : context.byteOf = placing.byteOf := by
    rw [assembles.context_eq]
    rfl
  have listing : context.listing =
      (layOut placing 0 (instructionLines (sourceLines source)) program).map Encoded.entry := by
    rw [assembles.context_eq]
    rfl
  rw [disassemble, assembles.program_eq, bytes, listing, List.zipWith_map_left]
  exact @disassembleFrom_imageOf placing 0 _ _ assembles.length_eq

/-- The byte that a branch carries is the address of its label in the table, where targets are
carried. -/
theorem byteOf_eq_addressOf {written : Written} (inside : written ∈ program)
    (carries : profile.encodesTargets = true) (name : Text)
    (goes : written.label? = some name) :
    ((context.byteOf name).toNat : Int) = context.addressOf name := by
  obtain ⟨lineNum, looked⟩ := assembles.label?_eq (assembles.declared inside goes)
  rw [assembles.byteOf_eq carries inside goes, Context.addressOf, looked]

end Assembles

/-- **Disassembling an assembled program** gives it back, under every profile and whatever the
size of the image: a row for each instruction line and none for data, with the address and the
bytes of its entry in the listing, which shows the instruction that the line writes. -/
theorem disassemble_assembled (profile : Profile) (source : Text) (maxLabels maxProgramSize : Int)
    {context : Context}
    (assembled : (assemble profile source maxLabels maxProgramSize).result = .ok context) :
    ∃ lines program, readSource source = .ok lines ∧
      List.Forall₂ (fun line => line.statement.Writes) (instructionLines lines) program ∧
      context.listing.map ListingEntry.place = (instructionLines lines).map Line.place ∧
      (disassemble profile context.program).length = program.length ∧
      ∀ (i : Nat) (entry : ListingEntry) (written : Written),
        context.listing[i]? = some entry → program[i]? = some written →
        ∃ row instruction, (disassemble profile context.program)[i]? = some row ∧
          row.instruction? = some instruction ∧ row.offset = entry.address ∧
          row.bytes = entry.bytes ∧
          row.text = Text.address entry.address ++ ": ".toList ++
            Text.padRight 12 (Text.hexRow entry.bytes) ++ "  ".toList ++
            written.shown profile.encodesTargets context.addressOf := by
  obtain ⟨program, assembles⟩ := exists_assembles assembled
  refine ⟨sourceLines source, program, assembles.readSource_eq, assembles.writes,
    assembles.map_place_listing, ?_, ?_⟩
  · rw [assembles.disassemble_eq, List.length_zipWith, assembles.length_listing_eq, Nat.min_self]
  · intro i entry written here there
    have shown := format_encode (assembles.byteOf_eq_addressOf (List.mem_of_getElem? there))
    refine ⟨⟨entry.address, entry.bytes,
      some (written.encode profile.encodesTargets context.byteOf)⟩, _, ?_, rfl, rfl, rfl, ?_⟩
    · rw [assembles.disassemble_eq, List.getElem?_zipWith, here, there]
    · rw [← shown]
      rfl

/-- A jump without its target is disassembled as it stands in the image. -/
theorem exists_disassembled_jump :
    ∃ context, (assemble .classic "JMP END\nEND:\nDPR R1".toList 50 256).result = .ok context ∧
      context.program = [6, 7, 1] ∧ (disassemble .classic context.program).length = 2 := by
  have worked : (assemble .classic "JMP END\nEND:\nDPR R1".toList 50 256).result.toOption.any
      (fun context => context.program = [6, 7, 1] ∧ context.listing.length = 2) = true := by
    decide +kernel
  obtain ⟨context, assembled, facts⟩ := exists_context_of_any worked
  obtain ⟨image, entries⟩ := of_decide_eq_true facts
  obtain ⟨lines, program, -, writes, places, rows, -⟩ :=
    disassemble_assembled .classic "JMP END\nEND:\nDPR R1".toList 50 256 assembled
  have count : program.length = 2 := by
    rw [← writes.length_eq, ← List.length_map (f := Line.place), ← places, List.length_map, entries]
  exact ⟨context, assembled, image, rows.trans count⟩

end ByteMachine
