import Mathlib.Data.List.Perm.Subperm
import ByteMachine.Proofs.Assembly.Image
import ByteMachine.Proofs.Source.Printed

/-!
# Programs for images

A program text for given instructions, such that its image is that of the instructions. Each of them
is printed as it stands in the image, and only branches need more, a label to go to. A label is made
up for every address that branches carry, and declared where an instruction of that offset begins or
the image ends. Where addresses are not carried, one label in front of everything serves all
branches.

## Main results

* `addressOf_recoveredFrom`: under true sizes a label stands at the address that it was made for.
* `acceptable_recoveredFrom`: the program is assembled, if there may be enough labels.
* `exists_assembled_of_instructions`: its image is that of the instructions.
-/

namespace ByteMachine

/-- The **offsets** of instructions that stand one behind the other, and the offset behind the
last. -/
def offsetsFrom (offset : Nat) : List Instruction → List Nat
  | [] => [offset]
  | instruction :: rest => offset :: offsetsFrom (offset + instruction.length) rest

/-- The **address** of a branch, as far as the image carries it: nothing for other instructions, and
no byte where the target is left out. -/
def Instruction.address? : Instruction → Option (Option UInt8)
  | branchIf _ _ address => some address
  | jump address => some address
  | _ => none

/-- The **label** that is made up for an address: a letter with the number of the address, or the
letter alone where the address is left out. -/
def labelFor : Option UInt8 → Text
  | none => ['L']
  | some address => 'L' :: Text.decimal address.toNat

/-- The offset where the label for an address is **declared**: at the address, or at the start of
the program if the address is not carried. -/
def placeFor : Option UInt8 → Nat
  | none => 0
  | some address => address.toNat

/-- An instruction as it is **written** with the labels that are made up, so that it can be a line
of a program text. -/
def Instruction.recovered : Instruction → Written
  | exit => .exit
  | store register value => .store register value
  | load register value => .load register value
  | add target source value => .add target source value
  | sub target source value => .sub target source value
  | branchIf register value address => .branchIf register value (labelFor address)
  | jump address => .jump (labelFor address)
  | display register => .display register

/-- The declarations of the labels for addresses that belong at an offset. -/
def labelsAt (addresses : List (Option UInt8)) (offset : Nat) : List Statement :=
  (addresses.filter fun address => placeFor address = offset).map fun address =>
    .label (labelFor address)

/-- The **program** for instructions the first of which stands at an offset: each instruction with
the declarations that belong in front of it, and those at the end. -/
def recoveredFrom (addresses : List (Option UInt8)) (offset : Nat) :
    List Instruction → List Statement
  | [] => labelsAt addresses offset ++ [.blank]
  | instruction :: rest =>
    labelsAt addresses offset ++ instruction.recovered.statement ::
      recoveredFrom addresses (offset + instruction.length) rest

/-! ### Labels -/

/-- Different addresses have different labels, so no label is declared twice. -/
theorem labelFor_injective : Function.Injective labelFor := by
  intro first second same
  cases first with
  | none =>
      cases second with
      | none => rfl
      | some _ => exact absurd (List.cons.inj same).2.symm Nat.toDigits_ne_nil
  | some first =>
      cases second with
      | none => exact absurd (List.cons.inj same).2 Nat.toDigits_ne_nil
      | some second =>
          have value := congrArg (Nat.ofDigitChars 10 · 0) (List.cons.inj same).2
          simp only [ofDigitChars_decimal] at value
          rw [UInt8.toNat_inj.mp value]

theorem isLabelName_labelFor (address : Option UInt8) : IsLabelName (labelFor address) := by
  cases address with
  | none => exact ⟨⟨'L', [], rfl, .inl (by decide), fun _ => nofun⟩, by decide⟩
  | some address =>
      refine ⟨⟨'L', _, rfl, .inl (by decide), fun c inside => ?_⟩, ?_⟩
      · exact .inr (.inr (.inr ((isNumeral_decimal _).2 c inside)))
      · have := length_decimal_le address
        rw [labelFor, List.length_cons, maxLabelLength]
        omega

variable {profile : Profile} {addresses : List (Option UInt8)} {address : Option UInt8}
  {offset : Nat} {instruction : Instruction} {instructions : List Instruction}

/-- The statements at an offset are the declarations that belong there. -/
theorem mem_labelsAt_iff {statement : Statement} :
    statement ∈ labelsAt addresses offset ↔
      ∃ address ∈ addresses, placeFor address = offset ∧ statement = .label (labelFor address) := by
  simp only [labelsAt, List.mem_map, List.mem_filter, decide_eq_true_eq, and_assoc,
    eq_comm (a := statement)]

theorem label_mem_labelsAt_iff :
    .label (labelFor address) ∈ labelsAt addresses offset ↔
      address ∈ addresses ∧ placeFor address = offset := by
  rw [mem_labelsAt_iff]
  constructor
  · rintro ⟨other, inside, place, same⟩
    obtain rfl := labelFor_injective (Statement.label.inj same)
    exact ⟨inside, place⟩
  · rintro ⟨inside, place⟩
    exact ⟨address, inside, place, rfl⟩

/-- Statements that take up nothing by themselves take up nothing together. -/
theorem extent_eq_zero {source : List Statement}
    (empty : ∀ statement ∈ source, statement.size profile = 0) : extent profile source = 0 := by
  induction source with
  | nil => rfl
  | cons statement source ih =>
      rw [List.forall_mem_cons] at empty
      rw [extent, empty.1, ih empty.2]

/-- The declarations at an offset take up nothing, and neither do those among them. -/
theorem extent_of_subset_labelsAt {source : List Statement}
    (among : source ⊆ labelsAt addresses offset) : extent profile source = 0 := by
  refine extent_eq_zero fun statement inside => ?_
  obtain ⟨address, -, -, rfl⟩ := mem_labelsAt_iff.mp (among inside)
  rfl

/-- The names that are declared at an offset are those of the addresses which belong there. -/
theorem declaredNames_labelsAt :
    declaredNames (labelsAt addresses offset) =
      (addresses.filter fun address => placeFor address = offset).map labelFor := by
  rw [declaredNames, labelsAt, List.filterMap_map, ← List.filterMap_eq_map]
  rfl

/-! ### Instructions -/

namespace Instruction

/-- An instruction as it is written goes to the label that is made up for its address. -/
theorem label?_recovered (instruction : Instruction) :
    instruction.recovered.label? = instruction.address?.map labelFor := by
  cases instruction <;> rfl

/-- An instruction as it is written is of the same row of the instruction table. -/
theorem mnemonic_recovered (instruction : Instruction) :
    instruction.recovered.mnemonic = instruction.mnemonic := by
  cases instruction <;> rfl

/-- An instruction as it is written goes to a label name, if it goes anywhere. -/
theorem isLabelName_of_label?_recovered (name : Text)
    (goes : instruction.recovered.label? = some name) : IsLabelName name := by
  rw [label?_recovered, Option.map_eq_some_iff] at goes
  obtain ⟨address, -, rfl⟩ := goes
  exact isLabelName_labelFor address

/-- The statement of an instruction writes that instruction, with its numbers in decimal. -/
theorem writes_recovered (instruction : Instruction) :
    instruction.recovered.statement.Writes instruction.recovered :=
  Written.writes_statement isLabelName_of_label?_recovered

/-- An instruction as it is written encodes to itself, if the label has its address. -/
theorem encode_recovered {targets : Bool} {byteOf : Text → UInt8}
    (fits : instruction.Fits targets)
    (places : ∀ address, instruction.address? = some (some address) →
      byteOf (labelFor (some address)) = address) :
    instruction.recovered.encode targets byteOf = instruction := by
  cases instruction with
  | branchIf register value address =>
      obtain rfl : address.isSome = targets := fits
      cases address with
      | none => rfl
      | some address => exact congrArg (branchIf register value ∘ some) (places address rfl)
  | jump address =>
      obtain rfl : address.isSome = targets := fits
      cases address with
      | none => rfl
      | some address => exact congrArg (jump ∘ some) (places address rfl)
  | _ => rfl

/-- An instruction as it is written takes up its length, under true sizes. -/
theorem size_recovered (exact : profile.fixedSizing = false)
    (fits : instruction.Fits profile.encodesTargets) :
    instruction.recovered.statement.size profile = instruction.length := by
  rw [instruction.writes_recovered.size_eq exact, mnemonic_recovered, fits.length_eq]

theorem Fits.isSome_address? {targets : Bool} (fits : instruction.Fits targets)
    (carried : instruction.address? = some address) : address.isSome = targets := by
  cases instruction with
  | branchIf _ _ _ => exact Option.some.inj carried ▸ fits
  | jump _ => exact Option.some.inj carried ▸ fits
  | _ => cases carried

theorem length_pos (instruction : Instruction) : 0 < instruction.length := by
  rw [length]
  omega

end Instruction

/-! ### The program -/

/-- The instructions of the program are those that were given, in their order. -/
theorem filter_recoveredFrom :
    (recoveredFrom addresses offset instructions).filter Statement.isInstruction =
      instructions.map fun instruction => instruction.recovered.statement := by
  have none_at (offset : Nat) :
      (labelsAt addresses offset).filter Statement.isInstruction = [] := by
    rw [List.filter_eq_nil_iff]
    intro statement inside
    obtain ⟨address, -, -, rfl⟩ := mem_labelsAt_iff.mp inside
    exact Bool.false_ne_true
  induction instructions generalizing offset with
  | nil =>
      rw [recoveredFrom, List.filter_append, none_at]
      rfl
  | cons instruction rest ih =>
      rw [recoveredFrom, List.filter_append, none_at, List.nil_append,
        List.filter_cons_of_pos rfl, ih, List.map_cons]

/-- What is not an instruction of the program is nothing, or the declaration of a label that
belongs there or behind. -/
theorem cases_of_mem_recoveredFrom {statement : Statement}
    (inside : statement ∈ recoveredFrom addresses offset instructions) :
    statement = .blank ∨
      (∃ address ∈ addresses, offset ≤ placeFor address ∧
        statement = .label (labelFor address)) ∨
      ∃ instruction ∈ instructions, statement = instruction.recovered.statement := by
  induction instructions generalizing offset with
  | nil =>
      rcases List.mem_append.mp inside with here | last
      · obtain ⟨address, among, place, same⟩ := mem_labelsAt_iff.mp here
        exact .inr (.inl ⟨address, among, Nat.le_of_eq place.symm, same⟩)
      · exact .inl (List.mem_singleton.mp last)
  | cons instruction rest ih =>
      rcases List.mem_append.mp inside with here | behind
      · obtain ⟨address, among, place, same⟩ := mem_labelsAt_iff.mp here
        exact .inr (.inl ⟨address, among, Nat.le_of_eq place.symm, same⟩)
      · rcases List.mem_cons.mp behind with rfl | later
        · exact .inr (.inr ⟨instruction, List.mem_cons_self .., rfl⟩)
        · rcases ih later with rfl | ⟨address, among, place, same⟩ | ⟨other, among, rfl⟩
          · exact .inl rfl
          · exact .inr (.inl ⟨address, among, by omega, same⟩)
          · exact .inr (.inr ⟨other, List.mem_cons_of_mem _ among, rfl⟩)

/-- A label is declared at the offset where it belongs, if that is the offset of an instruction or
the end. -/
theorem label_mem_recoveredFrom (inside : address ∈ addresses)
    (boundary : placeFor address ∈ offsetsFrom offset instructions) :
    .label (labelFor address) ∈ recoveredFrom addresses offset instructions := by
  induction instructions generalizing offset with
  | nil =>
      have here := label_mem_labelsAt_iff.mpr ⟨inside, List.mem_singleton.mp boundary⟩
      exact List.mem_append_left _ here
  | cons instruction rest ih =>
      rcases List.mem_cons.mp boundary with place | later
      · exact List.mem_append_left _ (label_mem_labelsAt_iff.mpr ⟨inside, place⟩)
      · exact List.mem_append_right _ (List.mem_cons_of_mem _ (ih later))

/-- A label that belongs at an offset stands in front of everything there. -/
theorem addressOf_labelsAt_append (inside : address ∈ addresses) (place : placeFor address = offset)
    (rest : List Statement) :
    addressOf profile (labelsAt addresses offset ++ rest) (labelFor address) = 0 := by
  rw [addressOf, beforeLabel_append_of_mem (label_mem_labelsAt_iff.mpr ⟨inside, place⟩)]
  exact extent_of_subset_labelsAt (List.takeWhile_subset _)

/-- A label that does not belong at an offset stands behind the instruction there. -/
theorem addressOf_labelsAt_append_cons (exact : profile.fixedSizing = false)
    (fits : instruction.Fits profile.encodesTargets) (place : placeFor address ≠ offset)
    (rest : List Statement) :
    addressOf profile (labelsAt addresses offset ++ instruction.recovered.statement :: rest)
        (labelFor address) =
      instruction.length + addressOf profile rest (labelFor address) := by
  have undeclared : .label (labelFor address) ∉ labelsAt addresses offset :=
    fun here => place (label_mem_labelsAt_iff.mp here).2
  have other : instruction.recovered.statement ≠ .label (labelFor address) := nofun
  rw [addressOf, beforeLabel_append_of_not_mem undeclared, extent_append,
    extent_of_subset_labelsAt (List.Subset.refl _), beforeLabel_cons_of_ne _ other, extent,
    instruction.size_recovered exact fits, Nat.zero_add]
  rfl

/-- Under true sizes a label stands at the address that it was made for, by induction on the
instructions in front of it. -/
theorem addressOf_recoveredFrom (exact : profile.fixedSizing = false)
    (fits : ∀ instruction ∈ instructions, instruction.Fits profile.encodesTargets)
    (inside : address ∈ addresses)
    (boundary : placeFor address ∈ offsetsFrom offset instructions) :
    offset + addressOf profile (recoveredFrom addresses offset instructions) (labelFor address) =
      placeFor address := by
  induction instructions generalizing offset with
  | nil =>
      have place := List.mem_singleton.mp boundary
      rw [recoveredFrom, addressOf_labelsAt_append inside place, place, Nat.add_zero]
  | cons instruction rest ih =>
      rw [List.forall_mem_cons] at fits
      rw [recoveredFrom]
      by_cases place : placeFor address = offset
      · rw [addressOf_labelsAt_append inside place, place, Nat.add_zero]
      · have later := (List.mem_cons.mp boundary).resolve_left place
        rw [addressOf_labelsAt_append_cons exact fits.1 place, ← Nat.add_assoc, ih fits.2 later]

/-- A name is declared for an address that belongs at the first offset or behind it. -/
theorem of_mem_declaredNames_recoveredFrom {name : Text}
    (declared : name ∈ declaredNames (recoveredFrom addresses offset instructions)) :
    ∃ address ∈ addresses, offset ≤ placeFor address ∧ name = labelFor address := by
  rcases cases_of_mem_recoveredFrom (mem_declaredNames_iff.mp declared) with
    same | ⟨address, among, place, same⟩ | ⟨instruction, -, same⟩
  · cases same
  · exact ⟨address, among, place, Statement.label.inj same⟩
  · cases same

/-- No name is declared twice in the program, since no address is there twice. -/
theorem nodup_declaredNames_recoveredFrom (distinct : addresses.Nodup) :
    (declaredNames (recoveredFrom addresses offset instructions)).Nodup := by
  have here (offset : Nat) : (declaredNames (labelsAt addresses offset)).Nodup := by
    rw [declaredNames_labelsAt]
    exact (distinct.filter _).map labelFor_injective
  induction instructions generalizing offset with
  | nil =>
      rw [recoveredFrom, declaredNames_append]
      exact List.append_nil _ ▸ here offset
  | cons instruction rest ih =>
      rw [recoveredFrom, declaredNames_append, List.nodup_append]
      refine ⟨here offset, ih, ?_⟩
      rintro name first other later rfl
      -- What is declared further behind belongs there.
      have behind : name ∈ declaredNames
          (recoveredFrom addresses (offset + instruction.length) rest) := later
      obtain ⟨address, -, place, rfl⟩ := of_mem_declaredNames_recoveredFrom behind
      obtain ⟨-, same⟩ := label_mem_labelsAt_iff.mp (mem_declaredNames_iff.mp first)
      have := instruction.length_pos
      omega

theorem length_declaredNames_recoveredFrom_le (distinct : addresses.Nodup) :
    (declaredNames (recoveredFrom addresses offset instructions)).length ≤ addresses.length := by
  have among : declaredNames (recoveredFrom addresses offset instructions) ⊆
      addresses.map labelFor := by
    intro name declared
    obtain ⟨address, inside, -, rfl⟩ := of_mem_declaredNames_recoveredFrom declared
    exact List.mem_map_of_mem inside
  have small := ((nodup_declaredNames_recoveredFrom distinct).subperm among).length_le
  rwa [List.length_map] at small

/-! ### Its assembly -/

section Assembly

variable {maxLabels : Int}
  (fits : ∀ instruction ∈ instructions, instruction.Fits profile.encodesTargets)
  (covers : ∀ instruction ∈ instructions, ∀ address, instruction.address? = some address →
    address ∈ addresses)
  (boundary : ∀ address ∈ addresses, placeFor address ∈ offsetsFrom 0 instructions)
  (exact : profile.encodesTargets = true → profile.fixedSizing = false)
  (distinct : addresses.Nodup) (room : (addresses.length : Int) ≤ max maxLabels 0)

/-- The program is not empty, even if there is no instruction: it ends in a blank line. -/
theorem recoveredFrom_ne_nil : recoveredFrom addresses offset instructions ≠ [] := by
  cases instructions with
  | nil => exact List.append_ne_nil_of_right_ne_nil _ (List.cons_ne_nil _ _)
  | cons _ _ => exact List.append_ne_nil_of_right_ne_nil _ (List.cons_ne_nil _ _)

/-- An assembly of a program text that says instructions, with whatever else between them, is one of
the instructions as they are written. -/
theorem Assembles.eq_map_recovered {source : Text} {program : List Written} {context : Context}
    (assembles : Assembles profile maxLabels source program context)
    (said : (statements source).filter Statement.isInstruction =
      instructions.map fun instruction => instruction.recovered.statement) :
    program = instructions.map Instruction.recovered := by
  have lines : (instructionLines (sourceLines source)).map Line.statement =
      instructions.map fun instruction => instruction.recovered.statement := by
    rw [← said, ← map_statement_sourceLines, List.filter_map]
    rfl
  have writes := assembles.writes
  rw [← List.forall₂_map_left_iff, lines, List.forall₂_map_left_iff] at writes
  have same := writes.imp fun instruction written writes =>
    instruction.writes_recovered.unique writes
  rw [← List.forall₂_map_left_iff, List.forall₂_eq_eq_eq] at same
  exact same.symm

/-- What the program writes is one of the instructions that were given. -/
theorem exists_instruction_of_writes {statement : Statement} {written : Written}
    (inside : statement ∈ recoveredFrom addresses offset instructions)
    (writes : statement.Writes written) :
    ∃ instruction ∈ instructions, written = instruction.recovered := by
  rcases cases_of_mem_recoveredFrom inside with
    rfl | ⟨address, -, -, rfl⟩ | ⟨instruction, among, rfl⟩
  · obtain ⟨tokens, same, -⟩ := writes
    cases same
  · obtain ⟨tokens, same, -⟩ := writes
    cases same
  · exact ⟨instruction, among, writes.unique instruction.writes_recovered⟩

/-- The program can be printed and read back: its names and its words have no blanks. -/
theorem printable_recoveredFrom {statement : Statement}
    (inside : statement ∈ recoveredFrom addresses offset instructions) : statement.Printable := by
  rcases cases_of_mem_recoveredFrom inside with
    rfl | ⟨address, -, -, rfl⟩ | ⟨instruction, -, rfl⟩
  · trivial
  · exact (isLabelName_labelFor address).1.isPlain
  · exact Written.printable_statement Instruction.isLabelName_of_label?_recovered

theorem readable_recoveredFrom {statement : Statement}
    (inside : statement ∈ recoveredFrom addresses offset instructions) : statement.Readable := by
  refine Statement.readable_of_short fun token among => ?_
  rcases cases_of_mem_recoveredFrom inside with
    rfl | ⟨address, -, -, rfl⟩ | ⟨instruction, -, rfl⟩
  · cases among
  · cases among
  · have short := Written.length_le_of_mem_tokens Instruction.isLabelName_of_label?_recovered among
    exact Nat.le_trans short (by decide)

include fits covers boundary exact distinct room

/-- The program is **acceptable**, if there may be a label for each address: its names are all
different, and each is declared where it should be. -/
theorem acceptable_recoveredFrom :
    Acceptable profile maxLabels (recoveredFrom addresses 0 instructions) where
  named := by
    intro name declared
    obtain ⟨address, -, -, rfl⟩ :=
      of_mem_declaredNames_recoveredFrom (mem_declaredNames_iff.mpr declared)
    exact isLabelName_labelFor address
  distinct := nodup_declaredNames_recoveredFrom distinct
  room := by
    have small := @length_declaredNames_recoveredFrom_le addresses 0 instructions distinct
    omega
  written := by
    intro word tokens inside
    rcases cases_of_mem_recoveredFrom inside with
      same | ⟨address, -, -, same⟩ | ⟨instruction, -, same⟩
    · cases same
    · cases same
    · exact ⟨_, same ▸ instruction.writes_recovered⟩
  declared := by
    intro statement inside written writes name goes
    obtain ⟨instruction, among, rfl⟩ := exists_instruction_of_writes inside writes
    rw [Instruction.label?_recovered, Option.map_eq_some_iff] at goes
    obtain ⟨address, carried, rfl⟩ := goes
    have used := covers instruction among address carried
    exact label_mem_recoveredFrom used (boundary address used)
  near := by
    intro carries statement inside written writes name goes
    obtain ⟨instruction, among, rfl⟩ := exists_instruction_of_writes inside writes
    rw [Instruction.label?_recovered, Option.map_eq_some_iff] at goes
    obtain ⟨address, carried, rfl⟩ := goes
    have used := covers instruction among address carried
    have place := addressOf_recoveredFrom (exact carries) fits used (boundary address used)
    rw [Nat.zero_add] at place
    rw [place]
    cases address with
    | none => exact Nat.zero_le _
    | some address => exact Nat.le_of_lt_succ address.toNat_lt

/-- Instructions are the **image** of a program, if there may be a label for each of the addresses
that branches carry. -/
theorem exists_assembled_of_instructions (maxProgramSize : Int) :
    ∃ source context, (assemble profile source maxLabels maxProgramSize).result = .ok context ∧
      context.program = instructions.flatMap Instruction.bytes := by
  let recovered := recoveredFrom addresses 0 instructions
  have said : statements (printedSource recovered) = recovered :=
    statements_printedSource recoveredFrom_ne_nil fun _ => printable_recoveredFrom
  have readable : ∀ statement ∈ statements (printedSource recovered), statement.Readable := by
    rw [said]
    exact fun _ => readable_recoveredFrom
  have acceptable : Acceptable profile maxLabels (statements (printedSource recovered)) := by
    rw [said]
    exact acceptable_recoveredFrom fits covers boundary exact distinct room
  obtain ⟨context, assembled⟩ := assemble_of_acceptable readable acceptable
  obtain ⟨program, assembles⟩ := exists_assembles assembled
  refine ⟨_, context, assembled, ?_⟩
  have written : program = instructions.map Instruction.recovered :=
    assembles.eq_map_recovered (said.symm ▸ filter_recoveredFrom)
  have byte {instruction : Instruction} (among : instruction ∈ instructions) {address : UInt8}
      (carried : instruction.address? = some (some address)) :
      context.byteOf (labelFor (some address)) = address := by
    have carries : profile.encodesTargets = true :=
      ((fits instruction among).isSome_address? carried).symm
    have used := covers instruction among _ carried
    have goes : instruction.recovered.label? = some (labelFor (some address)) := by
      rw [instruction.label?_recovered, carried]
      rfl
    have inside : instruction.recovered ∈ program := written ▸ List.mem_map_of_mem among
    have place := addressOf_recoveredFrom (exact carries) fits used (boundary _ used)
    rw [Nat.zero_add] at place
    refine UInt8.toNat_inj.mp ?_
    rw [assembles.byteOf_eq carries inside goes, said, place]
    rfl
  rw [assembles.program_eq, written, imageOf, List.flatMap_map]
  refine List.flatMap_congr fun instruction among => ?_
  rw [Instruction.encode_recovered (fits instruction among) fun _ => byte among]

end Assembly

end ByteMachine
