import Mathlib.Data.List.Dedup
import ByteMachine.Proofs.Disassembly.Recovery
import ByteMachine.Proofs.Disassembly.RoundTrip

/-!
# Which byte strings are images

The images of all program texts, told apart from other byte strings by their disassembly alone. An
image is read without a row of data. Where branches carry their targets, each of these is the offset
of a row or the end of the image, because a label stands nowhere else; and there are no more of them
than labels may be declared. Where targets are not carried, one label is enough for all branches.

That nothing else is asked for is shown by a program that is made up for the instructions read.

## Main results

* `disassembleFrom_flatMap`, `exists_instructions_of_disassembleFrom`: rows without data are
  instructions one behind the other.
* `isImage_iff`: which byte strings are images.
-/

namespace ByteMachine

/-- A byte string is an **image** if some program text is assembled to it, under the given
limits. -/
def IsImage (profile : Profile) (maxLabels maxProgramSize : Int) (image : List UInt8) : Prop :=
  ∃ source context, (assemble profile source maxLabels maxProgramSize).result = .ok context ∧
    context.program = image

/-- The target that an instruction carries, if it is a branch and has one. -/
def Instruction.target? : Instruction → Option UInt8
  | branchIf _ _ address => address
  | jump address => address
  | _ => none

/-- Whether an instruction is a branch, `IF` or `JMP`, with its target or without. -/
def Instruction.isBranch : Instruction → Bool
  | branchIf _ _ _ => true
  | jump _ => true
  | _ => false

/-- The targets that the instructions of rows carry, in their order. -/
def targetsOf (rows : List DisassemblyRow) : List UInt8 :=
  rows.filterMap fun row => row.instruction?.bind Instruction.target?

/-- The **rows** of instructions the first of which stands at an offset. They are what a
disassembler should give for the bytes of the instructions. -/
def rowsFrom (offset : Nat) : List Instruction → List DisassemblyRow
  | [] => []
  | instruction :: rest =>
    ⟨offset, instruction.bytes, some instruction⟩ :: rowsFrom (offset + instruction.length) rest

/-! ### Rows of instructions -/

variable {targets : Bool} {offset : Nat} {instructions : List Instruction}

/-- Instructions one behind the other are disassembled as their **rows**, by induction on the
instructions: the first is decoded, and the rest begins right behind it. -/
theorem disassembleFrom_flatMap
    (fits : ∀ instruction ∈ instructions, instruction.Fits targets) :
    disassembleFrom targets offset (instructions.flatMap Instruction.bytes) =
      rowsFrom offset instructions := by
  induction instructions generalizing offset with
  | nil => rw [List.flatMap_nil, disassembleFrom, rowsFrom]
  | cons instruction rest ih =>
      rw [List.forall_mem_cons] at fits
      rw [List.flatMap_cons, disassembleFrom_bytes_append fits.1, ih fits.2, rowsFrom]

/-- Bytes without a row of data are **instructions** one behind the other, each of which fits the
encoding. So they can be written as a program text. -/
theorem exists_instructions_of_disassembleFrom {bytes : List UInt8}
    (clean : ∀ row ∈ disassembleFrom targets offset bytes, row.instruction? ≠ none) :
    ∃ instructions : List Instruction, (∀ instruction ∈ instructions, instruction.Fits targets) ∧
      bytes = instructions.flatMap Instruction.bytes := by
  induction offset, bytes using disassembleFrom.induct targets with
  | case1 offset => exact ⟨[], fun _ => nofun, rfl⟩
  | case2 offset byte following instruction rest decoded ih =>
      obtain ⟨fits, bytes⟩ := decode_eq_instruction_iff.mp decoded
      rw [bytes, disassembleFrom_bytes_append fits, List.forall_mem_cons] at clean
      obtain ⟨instructions, all, rfl⟩ := ih clean.2
      exact ⟨instruction :: instructions, List.forall_mem_cons.mpr ⟨fits, all⟩, bytes⟩
  | case3 offset byte following failed ih =>
      rw [disassembleFrom] at clean
      split at clean
      · rename_i decoded
        exact absurd decoded (failed _ _)
      · exact absurd rfl (clean _ (List.mem_cons_self ..))

/-- The offsets of instructions are those of their rows, and the offset behind the last. -/
theorem mem_offsetsFrom_iff {place : Nat} :
    place ∈ offsetsFrom offset instructions ↔
      place = offset + (instructions.flatMap Instruction.bytes).length ∨
        ∃ row ∈ rowsFrom offset instructions, row.offset = place := by
  induction instructions generalizing offset with
  | nil =>
      rw [offsetsFrom, List.mem_singleton, List.flatMap_nil, List.length_nil, Nat.add_zero]
      exact ⟨.inl, fun either => either.resolve_right fun ⟨_, inside, _⟩ => nomatch inside⟩
  | cons instruction rest ih =>
      rw [offsetsFrom, List.mem_cons, ih, List.flatMap_cons, List.length_append,
        Instruction.length_bytes, ← Nat.add_assoc, rowsFrom, List.exists_mem_cons_iff]
      tauto

/-- The instructions that rows show are those that the rows were made for. -/
theorem map_instruction?_rowsFrom :
    (rowsFrom offset instructions).map DisassemblyRow.instruction? = instructions.map some := by
  induction instructions generalizing offset with
  | nil => rfl
  | cons instruction rest ih => exact congrArg (some instruction :: ·) ih

theorem targetsOf_rowsFrom :
    targetsOf (rowsFrom offset instructions) = instructions.filterMap Instruction.target? := by
  have same := congrArg (List.filterMap (·.bind Instruction.target?))
    (@map_instruction?_rowsFrom offset instructions)
  rw [List.filterMap_map, List.filterMap_map] at same
  exact same

theorem exists_row_of_mem {instruction : Instruction} (among : instruction ∈ instructions) :
    ∃ row ∈ rowsFrom offset instructions, row.instruction? = some instruction := by
  have shown : some instruction ∈
      (rowsFrom offset instructions).map DisassemblyRow.instruction? := by
    rw [map_instruction?_rowsFrom]
    exact List.mem_map_of_mem among
  exact List.mem_map.mp shown

/-- An instruction carries a target exactly if it has that address and it is carried. -/
theorem Instruction.target?_eq_some_iff {instruction : Instruction} {target : UInt8} :
    instruction.target? = some target ↔ instruction.address? = some (some target) := by
  cases instruction <;> simp [target?, address?]

/-- An instruction with an address is a branch, whether the address is carried or not. -/
theorem Instruction.isBranch_of_address? {instruction : Instruction} {address : Option UInt8}
    (carried : instruction.address? = some address) : instruction.isBranch = true := by
  cases instruction with
  | branchIf _ _ _ => rfl
  | jump _ => rfl
  | _ => cases carried

/-! ### Byte strings that are images -/

section Sufficient

variable {profile : Profile} {maxLabels : Int}
  (fits : ∀ instruction ∈ instructions, instruction.Fits profile.encodesTargets)

include fits

/-- Instructions whose targets are their offsets are an image, under true sizes. The program
text is the one that is recovered from them. -/
theorem isImage_of_targets (exact : profile.fixedSizing = false)
    (carries : profile.encodesTargets = true)
    (lands : ∀ target ∈ instructions.filterMap Instruction.target?,
      target.toNat ∈ offsetsFrom 0 instructions)
    (room : ((instructions.filterMap Instruction.target?).dedup.length : Int) ≤ max maxLabels 0)
    (maxProgramSize : Int) :
    IsImage profile maxLabels maxProgramSize (instructions.flatMap Instruction.bytes) := by
  let targets := (instructions.filterMap Instruction.target?).dedup
  have covers : ∀ instruction ∈ instructions, ∀ address, instruction.address? = some address →
      address ∈ targets.map some := by
    intro instruction among address carried
    have there := (fits instruction among).isSome_address? carried
    rw [carries, Option.isSome_iff_exists] at there
    obtain ⟨target, rfl⟩ := there
    refine List.mem_map_of_mem (List.mem_dedup.mpr ?_)
    exact List.mem_filterMap.mpr
      ⟨instruction, among, Instruction.target?_eq_some_iff.mpr carried⟩
  have boundary : ∀ address ∈ targets.map some,
      placeFor address ∈ offsetsFrom 0 instructions := by
    intro address inside
    obtain ⟨target, among, rfl⟩ := List.mem_map.mp inside
    exact lands target (List.mem_dedup.mp among)
  refine exists_assembled_of_instructions fits covers boundary (fun _ => exact)
    ((List.nodup_dedup _).map fun _ _ => Option.some.inj) ?_ maxProgramSize
  rw [List.length_map]
  exact room

/-- Instructions that do not carry targets are an image, if there may be one label for the
branches among them. -/
theorem isImage_of_branches (short : profile.encodesTargets = false)
    (room : (∃ instruction ∈ instructions, instruction.isBranch = true) → 1 ≤ maxLabels)
    (maxProgramSize : Int) :
    IsImage profile maxLabels maxProgramSize (instructions.flatMap Instruction.bytes) := by
  have carries : profile.encodesTargets = true → profile.fixedSizing = false := by
    rw [short]
    exact nofun
  by_cases branches : ∃ instruction ∈ instructions, instruction.isBranch = true
  · have covers : ∀ instruction ∈ instructions, ∀ address, instruction.address? = some address →
        address ∈ [none] := by
      intro instruction among address carried
      have missing := (fits instruction among).isSome_address? carried
      rw [short, Option.isSome_eq_false_iff, Option.isNone_iff_eq_none] at missing
      exact List.mem_singleton.mpr missing
    have boundary : ∀ address ∈ [none], placeFor address ∈ offsetsFrom 0 instructions := by
      intro address inside
      obtain rfl := List.mem_singleton.mp inside
      cases instructions with
      | nil => exact List.mem_singleton.mpr rfl
      | cons _ _ => exact List.mem_cons_self ..
    refine exists_assembled_of_instructions fits covers boundary carries
      (List.nodup_singleton _) ?_ maxProgramSize
    have := room branches
    rw [List.length_singleton]
    omega
  · have covers : ∀ instruction ∈ instructions, ∀ address, instruction.address? = some address →
        address ∈ [] := by
      intro instruction among address carried
      exact absurd ⟨instruction, among, Instruction.isBranch_of_address? carried⟩ branches
    exact exists_assembled_of_instructions fits covers (fun _ => nofun) carries List.nodup_nil
      (Int.le_max_right _ _) maxProgramSize

end Sufficient

/-! ### What holds of an image -/

/-- An encoding carries the byte of its label, if it should carry a target. -/
theorem Written.target?_encode (written : Written) (byteOf : Text → UInt8) :
    (written.encode targets byteOf).target? =
      if targets then written.label?.map byteOf else none := by
  cases written <;> cases targets <;> rfl

/-- An encoding is a branch exactly if the instruction goes to a label. -/
theorem Written.isBranch_encode (written : Written) (byteOf : Text → UInt8) :
    (written.encode targets byteOf).isBranch = written.label?.isSome := by
  cases written <;> rfl

namespace Assembles

variable {profile : Profile} {maxLabels : Int} {source : Text} {program : List Written}
  {context : Context} (assembles : Assembles profile maxLabels source program context)

include assembles

/-- A row of an image shows an entry of the listing with the encoding of its instruction. -/
theorem exists_of_mem_disassemble {row : DisassemblyRow}
    (inside : row ∈ disassemble profile context.program) :
    ∃ written ∈ program,
      row.instruction? = some (written.encode profile.encodesTargets context.byteOf) := by
  rw [assembles.disassemble_eq] at inside
  obtain ⟨i, found⟩ := List.mem_iff_getElem?.mp inside
  rw [List.getElem?_zipWith_eq_some] at found
  obtain ⟨entry, written, -, there, rfl⟩ := found
  exact ⟨written, List.mem_of_getElem? there, rfl⟩

/-- Every entry of the listing is shown by a row, at the address of the entry. -/
theorem exists_row_of_entry {entry : ListingEntry} {i : Nat}
    (here : context.listing[i]? = some entry) :
    ∃ row ∈ disassemble profile context.program, row.offset = entry.address := by
  obtain ⟨short, -⟩ := List.getElem?_eq_some_iff.mp here
  rw [assembles.length_listing_eq] at short
  have there := List.getElem?_eq_getElem short
  have found := congrArg (·[i]?) assembles.disassemble_eq
  simp only [List.getElem?_zipWith, here, there] at found
  exact ⟨_, List.mem_of_getElem? found, rfl⟩

/-- A target that an image carries is the byte of a label which the program names. -/
theorem exists_label_of_mem_targetsOf {target : UInt8}
    (inside : target ∈ targetsOf (disassemble profile context.program)) :
    ∃ written ∈ program, ∃ name, written.label? = some name ∧ context.byteOf name = target := by
  obtain ⟨row, shown, carried⟩ := List.mem_filterMap.mp inside
  obtain ⟨written, among, same⟩ := assembles.exists_of_mem_disassemble shown
  rw [same, Option.bind_some, Written.target?_encode] at carried
  split at carried
  · obtain ⟨name, goes, byte⟩ := Option.map_eq_some_iff.mp carried
    exact ⟨written, among, name, goes, byte⟩
  · cases carried

/-- Under true sizes a target lands where a row begins, or at the end of the image. -/
theorem target_lands (exact : profile.fixedSizing = false) (carries : profile.encodesTargets = true)
    {target : UInt8} (inside : target ∈ targetsOf (disassemble profile context.program)) :
    target.toNat = context.program.length ∨
      ∃ row ∈ disassemble profile context.program, row.offset = target.toNat := by
  obtain ⟨written, among, name, goes, rfl⟩ := assembles.exists_label_of_mem_targetsOf inside
  rw [assembles.byteOf_eq_boundary exact carries among goes, Context.boundary]
  split
  · rename_i entry here
    exact .inr (assembles.exists_row_of_entry here)
  · exact .inl rfl

/-- There are not more different targets than labels may be declared, since each is the address of
one. -/
theorem length_dedup_targetsOf_le :
    ((targetsOf (disassemble profile context.program)).dedup.length : Int) ≤ max maxLabels 0 := by
  have among : (targetsOf (disassemble profile context.program)).dedup ⊆
      (declaredNames (statements source)).map context.byteOf := by
    intro target inside
    obtain ⟨written, there, name, goes, rfl⟩ :=
      assembles.exists_label_of_mem_targetsOf (List.mem_dedup.mp inside)
    exact List.mem_map_of_mem (mem_declaredNames_iff.mpr (assembles.declared there goes))
  have few := (List.subperm_of_subset (List.nodup_dedup _) among).length_le
  have room := (freeOf_placingDefect_iff.mp assembles.placed).2
  rw [List.length_map] at few
  omega

/-- Where there is a branch a label may be declared, since a branch names one. -/
theorem one_le_of_isBranch {row : DisassemblyRow} {instruction : Instruction}
    (inside : row ∈ disassemble profile context.program)
    (shown : row.instruction? = some instruction) (branch : instruction.isBranch = true) :
    1 ≤ maxLabels := by
  obtain ⟨written, among, same⟩ := assembles.exists_of_mem_disassemble inside
  obtain rfl := Option.some.inj (shown.symm.trans same)
  rw [Written.isBranch_encode, Option.isSome_iff_exists] at branch
  obtain ⟨name, goes⟩ := branch
  have declared := mem_declaredNames_iff.mpr (assembles.declared among goes)
  have some_label := List.length_pos_of_mem declared
  have room := (freeOf_placingDefect_iff.mp assembles.placed).2
  omega

/-- An image is read without a row of data, for it is made of instructions. -/
theorem instruction?_ne_none {row : DisassemblyRow}
    (inside : row ∈ disassemble profile context.program) : row.instruction? ≠ none := by
  obtain ⟨written, -, same⟩ := assembles.exists_of_mem_disassemble inside
  rw [same]
  exact nofun

end Assembles

/-- **Which byte strings are images.** Under true sizes and with targets carried these are the byte
strings that are read without a row of data, in which every target is the offset of a row or the
end, and which have not more different targets than there may be labels. Where targets are not
carried, under any sizing, they are the byte strings that are read without a row of data, with a
branch among them only if there may be a label. -/
theorem isImage_iff (profile : Profile) (image : List UInt8) (maxLabels maxProgramSize : Int) :
    let rows := disassemble profile image
    (profile.fixedSizing = false → profile.encodesTargets = true →
      (IsImage profile maxLabels maxProgramSize image ↔
        (∀ row ∈ rows, row.instruction? ≠ none) ∧
        (∀ target ∈ targetsOf rows, target.toNat = image.length ∨
          ∃ row ∈ rows, row.offset = target.toNat) ∧
        ((targetsOf rows).dedup.length : Int) ≤ max maxLabels 0)) ∧
    (profile.encodesTargets = false →
      (IsImage profile maxLabels maxProgramSize image ↔
        (∀ row ∈ rows, row.instruction? ≠ none) ∧
        ((∃ row ∈ rows, ∃ instruction, row.instruction? = some instruction ∧
          instruction.isBranch = true) → 1 ≤ maxLabels))) := by
  intro rows
  constructor
  · intro exact carries
    constructor
    · rintro ⟨source, context, assembled, rfl⟩
      obtain ⟨program, assembles⟩ := exists_assembles assembled
      exact ⟨fun row => assembles.instruction?_ne_none,
        fun target => assembles.target_lands exact carries, assembles.length_dedup_targetsOf_le⟩
    · rintro ⟨clean, lands, room⟩
      obtain ⟨instructions, fits, rfl⟩ := exists_instructions_of_disassembleFrom clean
      have shown : rows = rowsFrom 0 instructions := disassembleFrom_flatMap fits
      rw [shown, targetsOf_rowsFrom] at lands room
      refine isImage_of_targets fits exact carries ?_ room maxProgramSize
      intro target inside
      rw [mem_offsetsFrom_iff, Nat.zero_add]
      exact lands target inside
  · intro short
    constructor
    · rintro ⟨source, context, assembled, rfl⟩
      obtain ⟨program, assembles⟩ := exists_assembles assembled
      refine ⟨fun row => assembles.instruction?_ne_none, ?_⟩
      rintro ⟨row, inside, instruction, shown, branch⟩
      exact assembles.one_le_of_isBranch inside shown branch
    · rintro ⟨clean, room⟩
      obtain ⟨instructions, fits, rfl⟩ := exists_instructions_of_disassembleFrom clean
      have shown : rows = rowsFrom 0 instructions := disassembleFrom_flatMap fits
      refine isImage_of_branches fits short ?_ maxProgramSize
      rintro ⟨instruction, among, branch⟩
      obtain ⟨row, inside, same⟩ := @exists_row_of_mem 0 _ _ among
      exact room ⟨row, shown ▸ inside, instruction, same, branch⟩

theorem isImage_jump :
    IsImage .resolved 1 256 [6, 2, 0] ∧ ¬ IsImage .resolved 1 256 [6, 1, 0] := by
  have fits (target : UInt8) : ∀ instruction ∈ [Instruction.jump (some target), .exit],
      instruction.Fits Profile.resolved.encodesTargets :=
    List.forall_mem_cons.mpr ⟨rfl, List.forall_mem_singleton.mpr trivial⟩
  have read (target : UInt8) : disassemble .resolved [6, target, 0] =
      rowsFrom 0 [.jump (some target), .exit] := disassembleFrom_flatMap (fits target)
  have carried (target : UInt8) :
      targetsOf (rowsFrom 0 [.jump (some target), .exit]) = [target] := rfl
  constructor
  · refine ((isImage_iff .resolved _ 1 256).1 rfl rfl).mpr ?_
    rw [read, carried]
    refine ⟨List.forall_mem_cons.mpr ⟨nofun, List.forall_mem_singleton.mpr nofun⟩,
      List.forall_mem_singleton.mpr (.inr ?_), by decide⟩
    exact ⟨⟨2, [0], some .exit⟩, List.mem_cons_of_mem _ (List.mem_singleton.mpr rfl), rfl⟩
  · intro image
    have lands := (((isImage_iff .resolved _ 1 256).1 rfl rfl).mp image).2.1
    rw [read, carried] at lands
    rcases List.forall_mem_singleton.mp lands with behind | ⟨row, inside, begins⟩
    · exact absurd behind (by decide)
    · rcases List.mem_cons.mp inside with rfl | last
      · exact absurd begins (by decide)
      · obtain rfl := List.mem_singleton.mp last
        exact absurd begins (by decide)

end ByteMachine
