import ByteMachine.Proofs.Disassembly.Columns
import ByteMachine.Proofs.Disassembly.RoundTrip
import ByteMachine.Proofs.Machine.Fetch

/-!
# The rows of an image partition it

The disassembler goes over an image from its first byte to its last and cuts it up as it goes.
What it cuts off next depends on what is left of the image and on nothing else: an instruction, if
one can be read in front, and one byte of data if not. `FirstRow` says which, and a disassembly is
one such row after the other (`disassembles`). Every row takes at least one byte off, so there is
an end to it; and the bytes of a row are the ones in front, so none is lost, shown twice or shown
under another address, also where the next instruction is found again behind data.

The statement about the printed lines speaks of their text alone.

## Main results

* `disassembles`: a disassembly is one first row after the other.
* `FirstRow.instruction?_eq_none_iff`: when a row shows data.
* `disassembly_partitions`: what the lines of a disassembly show.
-/

namespace ByteMachine

/-- The **first row** of bytes that stand at `offset`: an instruction, or a byte of data if none
can be read. -/
inductive FirstRow (targets : Bool) (offset : Nat) : List UInt8 → DisassemblyRow → Prop
  | instruction {instruction : Instruction} {rest : List UInt8} :
      instruction.Fits targets →
      FirstRow targets offset (instruction.bytes ++ rest)
        ⟨offset, instruction.bytes, some instruction⟩
  | data {byte : UInt8} {rest : List UInt8} :
      (∀ instruction behind, decode targets (byte :: rest) ≠ .instruction instruction behind) →
      FirstRow targets offset (byte :: rest) ⟨offset, [byte], none⟩

/-- Rows that are **first rows**, each of what the rows before have left, until nothing is left. -/
inductive Disassembles (targets : Bool) : Nat → List UInt8 → List DisassemblyRow → Prop
  | nil {offset : Nat} : Disassembles targets offset [] []
  | cons {offset : Nat} {row : DisassemblyRow} {rest : List UInt8} {rows : List DisassemblyRow} :
      FirstRow targets offset (row.bytes ++ rest) row →
      Disassembles targets (offset + row.bytes.length) rest rows →
      Disassembles targets offset (row.bytes ++ rest) (row :: rows)

/-- There is **data** at an offset of an image: the byte there is no opcode, or the instruction that
begins there would go on behind the end. -/
def IsData (profile : Profile) (image : List UInt8) (offset : Nat) : Prop :=
  ∃ byte, image[offset]? = some byte ∧
    (Mnemonic.ofOpcode? byte = none ∨
      ∃ mnemonic, Mnemonic.ofOpcode? byte = some mnemonic ∧
        image.length < offset + mnemonic.length profile)

variable {targets : Bool} {offset : Nat} {bytes : List UInt8} {row : DisassemblyRow}
  {rows : List DisassemblyRow} {profile : Profile}

/-- A disassembly is one **first row** after the other, by the recursion of the disassembler. What
is shown of first rows then holds of every row. -/
theorem disassembles (targets : Bool) (offset : Nat) (bytes : List UInt8) :
    Disassembles targets offset bytes (disassembleFrom targets offset bytes) := by
  induction offset, bytes using disassembleFrom.induct targets with
  | case1 offset =>
      rw [disassembleFrom]
      exact .nil
  | case2 offset byte following instruction rest decoded ih =>
      obtain ⟨fits, front⟩ := decode_eq_instruction_iff.mp decoded
      rw [front, disassembleFrom_bytes_append fits]
      refine @Disassembles.cons _ _ ⟨offset, instruction.bytes, some instruction⟩ _ _
        (.instruction fits) ?_
      rwa [Instruction.length_bytes]
  | case3 offset byte following failed ih =>
      have here : disassembleFrom targets offset (byte :: following) =
          ⟨offset, [byte], none⟩ :: disassembleFrom targets (offset + 1) following := by
        rw [disassembleFrom]
        split
        · rename_i decoded
          exact absurd decoded (failed _ _)
        · rfl
      rw [here]
      exact @Disassembles.cons _ _ ⟨offset, [byte], none⟩ _ _ (.data failed) ih

/-! ### One row -/

/-- No instruction is called `DB`, so a line of data can be told by its first word. -/
theorem Mnemonic.name_ne_data (mnemonic : Mnemonic) : mnemonic.name ≠ "DB".toList := by
  cases mnemonic <;> decide

namespace FirstRow

/-- A first row stands at the offset of the bytes that it is the first row of. -/
theorem offset_eq (first : FirstRow targets offset bytes row) : row.offset = offset := by
  cases first <;> rfl

/-- The bytes of a row fit the column that they are printed in: they are one to four. -/
theorem fitsColumn (first : FirstRow targets offset bytes row) : Text.FitsColumn row.bytes := by
  cases first with
  | @instruction instruction _ _ =>
      refine ⟨Nat.le_add_left 1 _, ?_⟩
      rw [Instruction.length_bytes]
      cases instruction with
      | branchIf _ _ address | jump address =>
          cases address <;> simp [Instruction.length, Instruction.operands, Instruction.fields]
      | _ => simp [Instruction.length, Instruction.operands, Instruction.fields]
  | data _ => exact ⟨Nat.le_refl 1, Nat.le_add_left 1 3⟩

/-- A row shows an instruction with the length of the table, or one byte of data. -/
theorem length_eq (first : FirstRow profile.encodesTargets offset bytes row) :
    row.bytes.length =
      match row.instruction? with
      | some shown => shown.mnemonic.length profile
      | none => 1 := by
  cases first with
  | @instruction instruction _ fits => exact instruction.length_bytes.trans fits.length_eq
  | data _ => rfl

/-- A row shows **data** exactly if the first byte is no opcode, or there are fewer bytes than its
instruction takes. -/
theorem instruction?_eq_none_iff (first : FirstRow profile.encodesTargets offset bytes row) :
    row.instruction? = none ↔
      ∃ byte rest, bytes = byte :: rest ∧
        (Mnemonic.ofOpcode? byte = none ∨
          ∃ mnemonic, Mnemonic.ofOpcode? byte = some mnemonic ∧
            bytes.length < mnemonic.length profile) := by
  cases first with
  | @instruction instruction rest fits =>
      refine iff_of_false (Option.some_ne_none _) ?_
      rintro ⟨byte, behind, front, unknown | ⟨mnemonic, known, short⟩⟩
      · obtain ⟨rfl, -⟩ := List.cons.inj front
        rw [Mnemonic.ofOpcode?_opcode] at unknown
        cases unknown
      · obtain ⟨rfl, -⟩ := List.cons.inj front
        rw [Mnemonic.ofOpcode?_opcode] at known
        cases known
        rw [← fits.length_eq, List.length_append, Instruction.length_bytes] at short
        omega
  | @data byte rest failed =>
      refine iff_of_true rfl ⟨byte, rest, rfl, ?_⟩
      cases known : Mnemonic.ofOpcode? byte with
      | none => exact .inl rfl
      | some mnemonic =>
          -- The instruction is known, so it is for want of bytes that it was not read.
          cases read : mnemonic.withOperands? profile.encodesTargets rest with
          | some both =>
              obtain ⟨instruction, behind⟩ := both
              refine absurd ?_ (failed instruction behind)
              simp only [decode, known, read]
          | none =>
              have short := Mnemonic.withOperands?_eq_none_iff.mp read
              refine .inr ⟨mnemonic, rfl, ?_⟩
              rw [List.length_cons]
              omega

theorem shownWord_eq_data_iff (first : FirstRow targets offset bytes row) :
    shownWord row.text = "DB".toList ↔ row.instruction? = none := by
  rw [DisassemblyRow.shownWord_text first.fitsColumn]
  cases row.instruction? with
  | none => exact iff_of_true rfl rfl
  | some shown => exact iff_of_false shown.mnemonic.name_ne_data (Option.some_ne_none _)

/-- A row of an instruction begins with its opcode, and its text with its name. -/
theorem exists_mnemonic (first : FirstRow profile.encodesTargets offset bytes row)
    (shown : row.instruction? ≠ none) :
    ∃ mnemonic : Mnemonic, bytes.head? = some mnemonic.opcode ∧
      shownWord row.text = mnemonic.name ∧ row.bytes.length = mnemonic.length profile := by
  have word := DisassemblyRow.shownWord_text first.fitsColumn
  have length := first.length_eq
  cases first with
  | @instruction instruction _ _ => exact ⟨instruction.mnemonic, rfl, word, length⟩
  | data _ => exact absurd rfl shown

end FirstRow

/-! ### All rows -/

namespace Disassembles

theorem flatMap_bytes (all : Disassembles targets offset bytes rows) :
    rows.flatMap DisassemblyRow.bytes = bytes := by
  induction all with
  | nil => rfl
  | cons _ _ ih => rw [List.flatMap_cons, ih]

/-- Every row is the first of what the rows before have left, and stands behind what they
show. -/
theorem firstRow (all : Disassembles targets offset bytes rows) {i : Nat}
    (found : rows[i]? = some row) :
    ∃ rest, bytes = (rows.take i).flatMap DisassemblyRow.bytes ++ rest ∧
      FirstRow targets (offset + ((rows.take i).flatMap DisassemblyRow.bytes).length) rest row := by
  induction all generalizing i with
  | nil => cases found
  | cons first _ ih =>
      cases i with
      | zero =>
          cases found
          exact ⟨_, rfl, first⟩
      | succ i =>
          obtain ⟨rest, front, there⟩ := ih found
          refine ⟨rest, ?_, ?_⟩
          · rw [List.take_succ_cons, List.flatMap_cons, List.append_assoc, ← front]
          · rw [List.take_succ_cons, List.flatMap_cons, List.length_append, ← Nat.add_assoc]
            exact there

theorem exists_firstRow (all : Disassembles targets offset bytes rows) (inside : row ∈ rows) :
    ∃ place rest, FirstRow targets place rest row := by
  obtain ⟨i, found⟩ := List.mem_iff_getElem?.mp inside
  obtain ⟨rest, -, first⟩ := all.firstRow found
  exact ⟨_, rest, first⟩

theorem shownBytes_text (all : Disassembles targets offset bytes rows) (inside : row ∈ rows) :
    shownBytes row.text = row.bytes := by
  obtain ⟨place, rest, first⟩ := all.exists_firstRow inside
  exact DisassemblyRow.shownBytes_text first.fitsColumn

/-- The text of the first rows shows the bytes of those rows, however many are taken. -/
theorem flatMap_shownBytes (all : Disassembles targets offset bytes rows) (count : Nat) :
    ((rows.map DisassemblyRow.text).take count).flatMap shownBytes =
      (rows.take count).flatMap DisassemblyRow.bytes := by
  rw [← List.map_take, List.flatMap_map]
  exact List.flatMap_congr fun row inside => all.shownBytes_text (List.mem_of_mem_take inside)

end Disassembles

/-- There is data at an offset exactly if the bytes from there on begin with data. -/
theorem isData_append_iff {front rest : List UInt8} :
    IsData profile (front ++ rest) front.length ↔
      ∃ byte behind, rest = byte :: behind ∧
        (Mnemonic.ofOpcode? byte = none ∨
          ∃ mnemonic, Mnemonic.ofOpcode? byte = some mnemonic ∧
            rest.length < mnemonic.length profile) := by
  rw [IsData, List.getElem?_append_right (Nat.le_refl _), Nat.sub_self, List.length_append]
  simp only [Nat.add_lt_add_iff_left]
  cases rest with
  | nil => simp
  | cons byte behind => simp

/-- A disassembly **partitions** an image. Read off the text of the lines alone: the bytes that they
show are the image; a line has the number of bytes shown before it as its address, and shows one to
four bytes and no other digits; it is a line of data, of one byte, exactly if there is data at that
address; and any other line shows as many bytes as the instruction has that begins there. -/
theorem disassembly_partitions (profile : Profile) (image : List UInt8) :
    let lines := (disassemble profile image).map DisassemblyRow.text
    lines.flatMap shownBytes = image ∧
      (∀ i line, lines[i]? = some line →
        let offset := ((lines.take i).flatMap shownBytes).length
        addressColumn line = Text.address offset ∧
          hexColumn line = Text.padRight 12 (Text.hexRow (shownBytes line)) ∧
          1 ≤ (shownBytes line).length ∧ (shownBytes line).length ≤ 4 ∧
          (shownWord line = "DB".toList ↔ IsData profile image offset) ∧
          (shownWord line = "DB".toList → (shownBytes line).length = 1) ∧
          (shownWord line ≠ "DB".toList → ∃ mnemonic : Mnemonic,
            image[offset]? = some mnemonic.opcode ∧ shownWord line = mnemonic.name ∧
              (shownBytes line).length = mnemonic.length profile)) ∧
      ∀ choice : ProfileRef, choice.resolve = .ok profile →
        disassembleBy choice image = .ok (disassemble profile image) := by
  intro lines
  have all : Disassembles profile.encodesTargets 0 image (disassemble profile image) :=
    disassembles _ 0 image
  refine ⟨?_, ?_, ?_⟩
  · have shown := all.flatMap_shownBytes lines.length
    rwa [List.take_length, List.take_of_length_le (by simp [lines]), all.flatMap_bytes] at shown
  · intro i line found
    rw [List.getElem?_map, Option.map_eq_some_iff] at found
    obtain ⟨row, there, rfl⟩ := found
    obtain ⟨rest, front, first⟩ := all.firstRow there
    have shown : shownBytes row.text = row.bytes := all.shownBytes_text (List.mem_of_getElem? there)
    rw [all.flatMap_shownBytes, shown]
    generalize ((disassemble profile image).take i).flatMap DisassemblyRow.bytes = before at *
    rw [Nat.zero_add] at first
    subst front
    refine ⟨?_, ?_, first.fitsColumn.one_le, first.fitsColumn.le_four, ?_, ?_, ?_⟩
    · rw [DisassemblyRow.addressColumn_text, first.offset_eq]
    · exact DisassemblyRow.hexColumn_text first.fitsColumn
    · rw [first.shownWord_eq_data_iff, first.instruction?_eq_none_iff, isData_append_iff]
    · intro data
      rw [first.shownWord_eq_data_iff] at data
      rw [first.length_eq, data]
    · intro other
      rw [Ne, first.shownWord_eq_data_iff] at other
      obtain ⟨mnemonic, begins, word, length⟩ := first.exists_mnemonic other
      refine ⟨mnemonic, ?_, word, length⟩
      rw [List.getElem?_append_right (Nat.le_refl _), Nat.sub_self, ← List.head?_eq_getElem?,
        begins]
  · intro choice resolved
    simp only [disassembleBy, resolved]

/-- A byte that is no opcode, an instruction, and a branch that is **cut off**. -/
example :
    (disassemble .resolved [0xFF, 0x07, 0x01, 0x06]).map DisassemblyRow.text =
      [ "$00: FF            DB $FF".toList,
        "$01: 07 01         DPR R1".toList,
        "$03: 06            DB $06".toList ] := by
  decide +kernel

end ByteMachine
