import ByteMachine.Proofs.Disassembly.Images
import ByteMachine.Proofs.Disassembly.Partition

/-!
# Assembling a disassembly

What a disassembly shows behind the bytes looks like a program text, and where no line is a branch
or data it is one: the printed form of an instruction is a line that writes that instruction. A
branch is shown with an address or with nothing where a program text has a label, and data is
shown as `DB`, which is no instruction, so those are left out.

Such a text can be assembled under any profile, not only under the one the image was read with,
since the profiles differ on nothing but branches; and with any number of labels, since it
declares none. What it is assembled to is the image.

## Main results

* `Instruction.format_eq`: what is shown of an instruction is how it is written.
* `assemble_format`: instructions that are no branches, printed and assembled.
* `reassembles_of_branchFree`: the text of a disassembly is assembled to the image.
-/

namespace ByteMachine

/-- The **instruction parts** of a disassembly, one on each line. This is the text that is to be
assembled again. -/
def shownSource (profile : Profile) (image : List UInt8) : Text :=
  Text.unlines (((disassemble profile image).map DisassemblyRow.text).map meaningColumn)

/-- A disassembly without lines of data and without **branches**, whose targets are shown as numbers
and not as labels. -/
def BranchFree (profile : Profile) (image : List UInt8) : Prop :=
  ∀ line ∈ (disassemble profile image).map DisassemblyRow.text,
    shownWord line ≠ "DB".toList ∧ shownWord line ≠ "IF".toList ∧ shownWord line ≠ "JMP".toList

variable {instructions : List Instruction}

/-! ### One instruction -/

namespace Instruction

variable {instruction : Instruction}

/-- An instruction that is no branch is **shown** as it is written in a program text, with registers
and numbers that are read back as they were. -/
theorem format_eq (plain : instruction.isBranch = false) :
    instruction.format = instruction.recovered.statement.printed := by
  cases instruction with
  | branchIf _ _ _ | jump _ => cases plain
  | _ => rfl

/-- An instruction that is no branch fits any encoding, whether that carries targets or not. -/
theorem fits_of_not_isBranch (plain : instruction.isBranch = false) (targets : Bool) :
    instruction.Fits targets := by
  cases instruction with
  | branchIf _ _ _ | jump _ => cases plain
  | _ => trivial

theorem address?_of_not_isBranch (plain : instruction.isBranch = false) :
    instruction.address? = none := by
  cases instruction with
  | branchIf _ _ _ | jump _ => cases plain
  | _ => rfl

theorem isBranch_eq_false_of_name (other : instruction.mnemonic.name ≠ "IF".toList)
    (another : instruction.mnemonic.name ≠ "JMP".toList) : instruction.isBranch = false := by
  cases instruction with
  | branchIf _ _ _ => exact absurd rfl other
  | jump _ => exact absurd rfl another
  | _ => rfl

end Instruction

/-! ### A program of instructions -/

section Program

/-- A statement is one of the given instructions, as it is written, or it is blank. -/
def AmongInstructions (instructions : List Instruction) (said : List Statement) : Prop :=
  ∀ statement ∈ said, statement = .blank ∨
    ∃ instruction ∈ instructions, statement = instruction.recovered.statement

variable {said : List Statement} (among : AmongInstructions instructions said)

include among

theorem label_not_mem (name : Text) : .label name ∉ said := by
  intro inside
  rcases among _ inside with same | ⟨instruction, -, same⟩
  · cases same
  · cases same

/-- There are no names that instructions declare, so no name is declared twice. -/
theorem declaredNames_eq_nil : declaredNames said = [] := by
  rw [List.eq_nil_iff_forall_not_mem]
  intro name declared
  exact label_not_mem among name (mem_declaredNames_iff.mp declared)

theorem readable_of_among {statement : Statement} (inside : statement ∈ said) :
    statement.Readable := by
  refine Statement.readable_of_short fun token there => ?_
  rcases among statement inside with rfl | ⟨instruction, -, rfl⟩
  · cases there
  · have short := Written.length_le_of_mem_tokens Instruction.isLabelName_of_label?_recovered there
    exact Nat.le_trans short (by decide)

omit among

variable (plain : ∀ instruction ∈ instructions, instruction.isBranch = false)

include plain

/-- An instruction that is no branch goes to no label, whatever it is encoded for. -/
theorem label?_of_writes {statement : Statement} {written : Written}
    (among : AmongInstructions instructions said) (inside : statement ∈ said)
    (writes : statement.Writes written) : written.label? = none := by
  rcases among statement inside with rfl | ⟨instruction, there, rfl⟩
  · obtain ⟨_, same, -⟩ := writes
    cases same
  · rw [writes.unique instruction.writes_recovered, Instruction.label?_recovered,
      Instruction.address?_of_not_isBranch (plain _ there), Option.map_none]

/-- Instructions that are no branches are acceptable, however many labels there may be. -/
theorem acceptable_of_among (among : AmongInstructions instructions said) (profile : Profile)
    (maxLabels : Int) : Acceptable profile maxLabels said where
  named name inside := absurd inside (label_not_mem among name)
  distinct := by
    rw [declaredNames_eq_nil among]
    exact List.nodup_nil
  room := by
    rw [declaredNames_eq_nil among]
    exact Int.le_max_right _ _
  written word tokens inside := by
    rcases among _ inside with same | ⟨instruction, -, same⟩
    · cases same
    · exact ⟨_, same ▸ instruction.writes_recovered⟩
  declared statement inside written writes name goes := by
    rw [label?_of_writes plain among inside writes] at goes
    cases goes
  near _ statement inside written writes name goes := by
    rw [label?_of_writes plain among inside writes] at goes
    cases goes

/-- Instructions that are shown one a line are said by the lines. Without any of them there is
one line, and it is blank. -/
theorem statements_format :
    let said := statements (Text.unlines (instructions.map Instruction.format))
    said.filter Statement.isInstruction =
        instructions.map (fun instruction => instruction.recovered.statement) ∧
      AmongInstructions instructions said := by
  intro said
  cases instructions with
  | nil =>
      have blank : said = [.blank] :=
        @statements_printedSource [.blank] (List.cons_ne_nil _ _)
          (List.forall_mem_singleton.mpr trivial)
      rw [blank]
      exact ⟨rfl, fun statement inside => .inl (List.mem_singleton.mp inside)⟩
  | cons first rest =>
      have shown : (first :: rest).map Instruction.format =
          ((first :: rest).map fun instruction => instruction.recovered.statement).map
            Statement.printed := by
        rw [List.map_map]
        exact List.map_congr_left fun instruction among => Instruction.format_eq (plain _ among)
      have all : said = (first :: rest).map fun instruction => instruction.recovered.statement := by
        refine (congrArg (statements ∘ Text.unlines) shown).trans ?_
        refine statements_printedSource (List.cons_ne_nil _ _) fun statement inside => ?_
        obtain ⟨instruction, -, rfl⟩ := List.mem_map.mp inside
        exact Written.printable_statement Instruction.isLabelName_of_label?_recovered
      rw [all]
      refine ⟨List.filter_eq_self.mpr fun statement inside => ?_, fun statement inside => ?_⟩
      · obtain ⟨instruction, -, rfl⟩ := List.mem_map.mp inside
        rfl
      · obtain ⟨instruction, among, rfl⟩ := List.mem_map.mp inside
        exact .inr ⟨instruction, among, rfl⟩

/-- Instructions that are no branches, shown one a line, are **assembled** to their bytes, under any
profile and with any number of labels. -/
theorem assemble_format (profile : Profile) (maxLabels maxProgramSize : Int) :
    ∃ context,
      (assemble profile (Text.unlines (instructions.map Instruction.format)) maxLabels
        maxProgramSize).result = .ok context ∧
      context.program = instructions.flatMap Instruction.bytes := by
  obtain ⟨filtered, among⟩ := statements_format plain
  obtain ⟨context, assembled⟩ := @assemble_of_acceptable profile maxLabels maxProgramSize _
    (fun _ => readable_of_among among) (acceptable_of_among plain among profile maxLabels)
  obtain ⟨program, assembles⟩ := exists_assembles assembled
  refine ⟨context, assembled, ?_⟩
  rw [assembles.program_eq, assembles.eq_map_recovered filtered, imageOf, List.flatMap_map]
  refine List.flatMap_congr fun instruction there => ?_
  rw [Instruction.encode_recovered (Instruction.fits_of_not_isBranch (plain _ there) _)]
  intro address carried
  rw [Instruction.address?_of_not_isBranch (plain _ there)] at carried
  cases carried

end Program

/-! ### A disassembly -/

/-- The rows of instructions mean the printed forms of the instructions. -/
theorem map_meaning_rowsFrom (offset : Nat) (instructions : List Instruction) :
    (rowsFrom offset instructions).map DisassemblyRow.meaning =
      instructions.map Instruction.format := by
  induction instructions generalizing offset with
  | nil => rfl
  | cons instruction rest ih => exact congrArg (instruction.format :: ·) (ih _)

/-- A row that is shown neither as data nor as a branch is that of an instruction that is
none. -/
theorem FirstRow.exists_plain {targets : Bool} {offset : Nat} {bytes : List UInt8}
    {row : DisassemblyRow} (first : FirstRow targets offset bytes row)
    (free : shownWord row.text ≠ "DB".toList ∧ shownWord row.text ≠ "IF".toList ∧
      shownWord row.text ≠ "JMP".toList) :
    ∃ shown, row.instruction? = some shown ∧ shown.isBranch = false := by
  obtain ⟨data, other, another⟩ := free
  rw [Ne, first.shownWord_eq_data_iff] at data
  obtain ⟨shown, found⟩ := Option.ne_none_iff_exists'.mp data
  rw [DisassemblyRow.shownWord_text first.fitsColumn, found] at other another
  exact ⟨shown, found, Instruction.isBranch_eq_false_of_name other another⟩

/-- A disassembly without data and branches is that of instructions that are no branches, and it
shows their printed forms. -/
theorem exists_instructions_of_branchFree {profile : Profile} {image : List UInt8}
    (free : BranchFree profile image) :
    ∃ instructions : List Instruction,
      (∀ instruction ∈ instructions, instruction.isBranch = false) ∧
        image = instructions.flatMap Instruction.bytes ∧
        shownSource profile image = Text.unlines (instructions.map Instruction.format) := by
  have all : Disassembles profile.encodesTargets 0 image (disassemble profile image) :=
    disassembles _ 0 image
  have plain : ∀ row ∈ disassemble profile image,
      ∃ shown, row.instruction? = some shown ∧ shown.isBranch = false := by
    intro row inside
    obtain ⟨place, rest, first⟩ := all.exists_firstRow inside
    exact first.exists_plain (free _ (List.mem_map_of_mem inside))
  have means : ((disassemble profile image).map DisassemblyRow.text).map meaningColumn =
      (disassemble profile image).map DisassemblyRow.meaning := by
    rw [List.map_map]
    refine List.map_congr_left fun row inside => ?_
    obtain ⟨place, rest, first⟩ := all.exists_firstRow inside
    rw [Function.comp_apply, DisassemblyRow.meaningColumn_text first.fitsColumn]
  have clean : ∀ row ∈ disassemble profile image, row.instruction? ≠ none := by
    intro row inside
    obtain ⟨shown, found, -⟩ := plain row inside
    rw [found]
    exact Option.some_ne_none shown
  obtain ⟨instructions, fits, rfl⟩ := exists_instructions_of_disassembleFrom clean
  have rows : disassemble profile (instructions.flatMap Instruction.bytes) =
      rowsFrom 0 instructions := disassembleFrom_flatMap fits
  rw [rows] at plain means
  refine ⟨instructions, ?_, rfl, ?_⟩
  · intro instruction among
    obtain ⟨row, inside, shown⟩ := @exists_row_of_mem 0 instructions instruction among
    obtain ⟨other, found, other_plain⟩ := plain row inside
    rw [shown] at found
    cases found
    exact other_plain
  · rw [shownSource, rows, means, map_meaning_rowsFrom]

/-- The text of a disassembly without data and branches is **assembled** to the image it was read
from: under any profile, whichever it was read with, and with any number of labels. -/
theorem reassembles_of_branchFree (first second : Profile) (image : List UInt8)
    (maxLabels maxProgramSize : Int) (free : BranchFree first image) :
    ∃ context,
      (assemble second (shownSource first image) maxLabels maxProgramSize).result = .ok context ∧
        context.program = image := by
  obtain ⟨instructions, plain, rfl, shown⟩ := exists_instructions_of_branchFree free
  rw [shown]
  exact assemble_format plain second maxLabels maxProgramSize

/-- An image of three instructions, read under one profile and assembled under the other, with
no room for labels. -/
theorem reassembles_of_three :
    let image : List UInt8 := [0x01, 0x02, 0xFF, 0x03, 0x00, 0x02, 0x0A, 0x00]
    BranchFree .resolved image ∧
      shownSource .resolved image = "STORE R2, 255\nADD R0, R2, 10\nEXIT".toList ∧
      ∃ context, (assemble .classic (shownSource .resolved image) 0 0).result = .ok context ∧
        context.program = image := by
  intro image
  have free : BranchFree .resolved image := by
    rw [BranchFree]
    decide +kernel
  have shown : shownSource .resolved image = "STORE R2, 255\nADD R0, R2, 10\nEXIT".toList := by
    decide +kernel
  exact ⟨free, shown, reassembles_of_branchFree .resolved .classic image 0 0 free⟩

end ByteMachine
