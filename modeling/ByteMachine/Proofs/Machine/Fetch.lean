import ByteMachine.Machine.Fetch
import ByteMachine.Proofs.Text.Numeral

/-!
# What a fetch finds

Fetching by the bytes that stand in the memory. A memory `HoldsAt` an address the bytes that
stand there, and a fetch succeeds exactly where those of an instruction do. It fails in three
ways, one behind the other: the address lies outside the memory, the byte there is no opcode, or
the instruction that begins with it goes on behind the end of the memory.

The error of the first and the last is that of the access that fails. It is an address error if the
memory `Names` the address, which it does unless the address is both far away and too long to be
written. The operands are read one after the other, so the access that fails for an instruction
which is cut off is the one right behind the memory, and that has a name.

## Main results

* `Ram.refuse_of_names`, `Ram.refuse_of_not_names`: the error of an access outside the memory.
* `Ram.readMany_of_behind`: the first byte that is missing ends the reading of several.
* `Mnemonic.withOperands?_eq_none_iff`: operands are read exactly if there are enough bytes.
* `Ram.fetch_eq_ok_iff`: what a fetch that succeeds has found.
* `Ram.fetch_of_not_contains`, `Ram.fetch_of_unknown`, `Ram.fetch_of_cutOff`: why a fetch fails.
* `Ram.fetch_cases`: there is no other way for it to end.
-/

namespace ByteMachine

/-- A memory **holds** bytes at an address: they are its cells from there on. Whatever is said about
fetching is said in terms of this. -/
def Ram.HoldsAt (ram : Ram) (address : Int) (bytes : List UInt8) : Prop :=
  ∃ front back, ram.cells = front ++ (bytes ++ back) ∧ address = front.length

/-- A memory **names** an address in the message of an error: the address goes no further than the
memory, or its numeral is not too long. -/
def Ram.Names (ram : Ram) (address : Int) : Prop :=
  address.natAbs ≤ ram.size ∨ Text.isShort address = true

/-- The **error** of an access to an address that is named, with the message about it and its
numeral. -/
def Ram.namedError (ram : Ram) (address : Int) : AccessError :=
  .outside ⟨address, ram.size, outsideMessage (Text.signedDecimal address) ram.size⟩

namespace Ram

variable {ram : Ram} {address : Int} {bytes more : List UInt8}

/-- A natural number is an address of the memory exactly if it is less than the size. -/
theorem contains_natCast {address : Nat} : ram.contains address = true ↔ address < ram.size := by
  simp [contains]

/-- An integer is an address of the memory exactly if it lies between zero and the size, which is
excluded. -/
theorem contains_iff : ram.contains address = true ↔ 0 ≤ address ∧ address < ram.size := by
  simp [contains]

/-- The first address behind the memory has a name, because the size does. It is the one that a
truncated instruction is refused for. -/
theorem names_size (ram : Ram) : ram.Names ram.size :=
  .inl (Nat.le_of_eq (Int.natAbs_natCast _))

/-- The addresses in the memory have names: they are no longer than that of the size. -/
theorem names_of_contains (inside : ram.contains address = true) : ram.Names address := by
  rw [contains_iff] at inside
  exact .inl (by omega)

/-- A small memory does not name the first integer that is too long, so accesses there fail with no
error to show. -/
theorem not_names_firstLong (small : ram.size ≤ maxDecimalDigits) :
    ¬ ram.Names Text.firstLong := by
  rintro (near | short)
  · exact absurd (Nat.lt_of_lt_of_le Text.lt_natAbs_firstLong near) (Nat.not_lt.mpr small)
  · exact Text.not_isShort_firstLong short

/-- The error about an address that is **named** carries it, and its message shows its numeral.
Every address in the memory and the one behind it are named. -/
theorem refuse_of_names (names : ram.Names address) :
    ram.refuse address = ram.namedError address := by
  have numeral : ram.addressNumeral address = .ok (Text.signedDecimal address) := by
    by_cases near : address.natAbs ≤ ram.size
    · rw [addressNumeral, if_pos near]
    · rw [addressNumeral, if_neg near, Text.numeral_of_isShort (names.resolve_left near)]
  rw [refuse, numeral, namedError]

/-- The error about an address that has **no name** is that it is too long to be written. It carries
no address, and no fault is made of it. -/
theorem refuse_of_not_names (unnamed : ¬ ram.Names address) : ram.refuse address = .unnamed {} := by
  obtain ⟨far, long⟩ := not_or.mp unnamed
  rw [refuse, addressNumeral, if_neg far, Text.numeral, if_neg long]

theorem HoldsAt.left (holds : ram.HoldsAt address (bytes ++ more)) : ram.HoldsAt address bytes := by
  obtain ⟨front, back, cells, rfl⟩ := holds
  exact ⟨front, more ++ back, by rw [cells, List.append_assoc], rfl⟩

/-- Bytes that stand somewhere end inside the memory, even if there are none of them. -/
theorem HoldsAt.le_size (holds : ram.HoldsAt address bytes) :
    0 ≤ address ∧ address + bytes.length ≤ ram.size := by
  obtain ⟨front, back, cells, rfl⟩ := holds
  rw [size, cells, List.length_append, List.length_append]
  omega

theorem HoldsAt.right (holds : ram.HoldsAt address (bytes ++ more)) :
    ram.HoldsAt (address + bytes.length) more := by
  obtain ⟨front, back, cells, rfl⟩ := holds
  refine ⟨front ++ bytes, back, ?_, ?_⟩
  · rw [cells, List.append_assoc, List.append_assoc]
  · rw [List.length_append]
    omega

/-- One byte or more stand at an address in the memory. For no bytes the address may be the size. -/
theorem HoldsAt.contains {byte : UInt8} (holds : ram.HoldsAt address (byte :: bytes)) :
    ram.contains address = true := by
  have inside := holds.le_size
  rw [List.length_cons] at inside
  rw [contains_iff]
  omega

/-- Bytes that stand somewhere come first among the cells from there on. -/
theorem HoldsAt.drop_eq (holds : ram.HoldsAt address bytes) :
    ∃ back, ram.cells.drop address.toNat = bytes ++ back := by
  obtain ⟨front, back, cells, rfl⟩ := holds
  exact ⟨back, by rw [cells, Int.toNat_natCast, List.drop_left]⟩

/-- The bytes behind those that stand somewhere reach to the end of the memory. -/
theorem HoldsAt.add_length_eq {back : List UInt8} (holds : ram.HoldsAt address bytes)
    (stand : ram.cells.drop address.toNat = bytes ++ back) :
    address + bytes.length + back.length = ram.size := by
  have inside := holds.le_size
  have left := congrArg List.length stand
  rw [List.length_drop, List.length_append] at left
  rw [size] at inside ⊢
  omega

/-- Bytes that come first among the cells from an address on stand there. -/
theorem holdsAt_of_drop_eq {back : List UInt8} (inside : ram.contains address = true)
    (stand : ram.cells.drop address.toNat = bytes ++ back) : ram.HoldsAt address bytes := by
  obtain ⟨positive, small⟩ := contains_iff.mp inside
  refine ⟨ram.cells.take address.toNat, back, ?_, ?_⟩
  · rw [← stand, List.take_append_drop]
  · rw [size] at small
    rw [List.length_take]
    omega

/-- At every address of the memory some byte stands, since all cells have one. -/
theorem exists_holdsAt (inside : ram.contains address = true) :
    ∃ byte, ram.HoldsAt address [byte] := by
  obtain ⟨positive, small⟩ := contains_iff.mp inside
  have short : address.toNat < ram.cells.length := by
    rw [size] at small
    omega
  exact ⟨ram.cells[address.toNat], holdsAt_of_drop_eq inside (List.drop_eq_getElem_cons short)⟩

theorem HoldsAt.ends_or_next {byte : UInt8} (holds : ram.HoldsAt address [byte]) :
    address + 1 = ram.size ∨ ∃ next, ram.HoldsAt address [byte, next] := by
  obtain ⟨back, stand⟩ := holds.drop_eq
  cases back with
  | nil =>
      have ends := holds.add_length_eq stand
      rw [List.length_singleton, List.length_nil] at ends
      exact .inl (by omega)
  | cons next back => exact .inr ⟨next, holdsAt_of_drop_eq holds.contains stand⟩

theorem HoldsAt.read_eq {byte : UInt8} (holds : ram.HoldsAt address [byte]) :
    ram.read address = .ok byte := by
  have inside := holds.contains
  obtain ⟨front, back, cells, rfl⟩ := holds
  rw [read, if_pos inside, cells, Int.toNat_natCast, List.getElem?_append_right (Nat.le_refl _),
    Nat.sub_self]
  rfl

/-- The byte that stands at an address is the one at that place among the cells. -/
theorem HoldsAt.getD_cells_eq {byte : UInt8} (holds : ram.HoldsAt address [byte]) :
    ram.cells.getD address.toNat 0 = byte := by
  obtain ⟨back, stand⟩ := holds.drop_eq
  rw [List.getD_eq_getElem?_getD, ← List.head?_drop, stand]
  rfl

/-- At an address stands only one byte, so an opcode that stands there is the only one. -/
theorem HoldsAt.unique {byte other : UInt8} (holds : ram.HoldsAt address [byte])
    (again : ram.HoldsAt address [other]) : byte = other :=
  Except.ok.inj (holds.read_eq.symm.trans again.read_eq)

/-- Outside the memory nothing is read. The error about the address is what `refuse` makes of it. -/
theorem read_of_not_contains (outside : ¬ ram.contains address = true) :
    ram.read address = .error (ram.refuse address) :=
  if_neg outside

theorem HoldsAt.readMany_eq (holds : ram.HoldsAt address bytes) :
    ram.readMany address bytes.length = .ok bytes := by
  induction bytes generalizing address with
  | nil => rfl
  | cons byte bytes ih =>
      have first : ram.HoldsAt address [byte] := HoldsAt.left holds
      have rest : ram.HoldsAt (address + 1) bytes := @HoldsAt.right ram address [byte] bytes holds
      rw [List.length_cons, readMany, first.read_eq]
      simp only [ih rest, Except.map]

/-- Of several bytes that go on behind the memory the first that is **missing** ends the reading:
the one right behind the memory. -/
theorem readMany_of_behind {count : Nat} (begins : 0 ≤ address ∧ address ≤ ram.size)
    (behind : ram.size < address + count) :
    ram.readMany address count = .error (ram.refuse ram.size) := by
  induction count generalizing address with
  | zero => omega
  | succ count ih =>
      by_cases inside : ram.contains address = true
      · obtain ⟨byte, holds⟩ := exists_holdsAt inside
        have within := contains_iff.mp inside
        have rest := @ih (address + 1) (by omega) (by omega)
        rw [readMany, holds.read_eq]
        simp only [rest, Except.map]
      · have ends : address = ram.size := by
          rw [contains_iff] at inside
          omega
        rw [readMany, read_of_not_contains inside, ends]

/-- The instruction whose opcode stands at an address is the one that is looked up there. -/
theorem HoldsAt.mnemonicAt_eq {mnemonic : Mnemonic}
    (holds : ram.HoldsAt address [mnemonic.opcode]) : ram.mnemonicAt address = .ok mnemonic := by
  simp only [mnemonicAt, holds.read_eq, Mnemonic.ofOpcode?_opcode]

end Ram

/-! ### Operands -/

/-- Operands are not read exactly if there are fewer bytes than the instruction takes under the
profile. -/
theorem Mnemonic.withOperands?_eq_none_iff {profile : Profile} {mnemonic : Mnemonic}
    {bytes : List UInt8} :
    mnemonic.withOperands? profile.encodesTargets bytes = none ↔
      1 + bytes.length < mnemonic.length profile := by
  rw [length_eq, encodedKinds]
  -- No instruction has more than three operands, so the bytes behind the third never matter.
  rcases bytes with _ | ⟨first, _ | ⟨second, _ | ⟨third, rest⟩⟩⟩ <;>
    cases mnemonic <;> cases profile.encodesTargets <;>
      simp [withOperands?, operandKinds] <;> omega

/-- The operands of an instruction that fits make that instruction, with no byte left over. -/
theorem Instruction.Fits.withOperands?_eq {targets : Bool} {instruction : Instruction}
    (fits : instruction.Fits targets) :
    instruction.mnemonic.withOperands? targets instruction.operands = some (instruction, []) := by
  cases instruction with
  | branchIf register value address => cases address <;> subst fits <;> rfl
  | jump address => cases address <;> subst fits <;> rfl
  | _ => rfl

/-- A byte is the opcode of a row of the instruction table, or it is none of the table's. -/
theorem Mnemonic.ofOpcode?_eq_none_iff {opcode : UInt8} :
    ofOpcode? opcode = none ↔ ∀ mnemonic : Mnemonic, mnemonic.opcode ≠ opcode := by
  constructor
  · rintro unknown mnemonic rfl
    rw [ofOpcode?_opcode] at unknown
    cases unknown
  · intro other
    cases found : ofOpcode? opcode with
    | none => rfl
    | some mnemonic => exact absurd (opcode_of_ofOpcode? found) (other mnemonic)

/-- Instructions with the same opcode are the same row of the table, so decoding is unambiguous. -/
theorem Mnemonic.opcode_inj {mnemonic other : Mnemonic} (same : mnemonic.opcode = other.opcode) :
    mnemonic = other := by
  have found := ofOpcode?_opcode mnemonic
  rw [same, ofOpcode?_opcode] at found
  exact (Option.some.inj found).symm

/-! ### Fetching -/

namespace Ram

variable {ram : Ram} {profile : Profile} {pc : Int}

/-- An instruction whose bytes stand at the address is fetched: its opcode is found there, and
behind it as many operands as it has. -/
theorem fetch_of_holdsAt {instruction : Instruction}
    (fits : instruction.Fits profile.encodesTargets) (holds : ram.HoldsAt pc instruction.bytes) :
    ram.fetch profile pc = .ok instruction := by
  have opcode : ram.HoldsAt pc [instruction.mnemonic.opcode] := HoldsAt.left holds
  have operands : ram.HoldsAt (pc + 1) instruction.operands :=
    @HoldsAt.right ram pc [instruction.mnemonic.opcode] _ holds
  have all : (instruction.mnemonic.encodedKinds profile).length = instruction.operands.length := by
    have length := fits.length_eq
    rw [Mnemonic.length_eq, Instruction.length] at length
    omega
  have read : (ram.readMany (pc + 1) (instruction.mnemonic.encodedKinds profile).length).mapError
      FetchError.access = .ok instruction.operands := by
    rw [all, operands.readMany_eq]
    rfl
  simp only [fetch, opcode.mnemonicAt_eq, read, fits.withOperands?_eq, bind, Except.bind, pure,
    Except.pure]

/-- **Outside** the memory nothing is fetched: the opcode is the first byte to be read, and reading
it fails. -/
theorem fetch_of_not_contains (outside : ¬ ram.contains pc = true) :
    ram.fetch profile pc = .error (.access (ram.refuse pc)) := by
  simp only [fetch, mnemonicAt, read_of_not_contains outside]
  rfl

/-- A byte that is **no opcode** is not fetched, wherever it stands. No operand is read behind it,
so the end of the memory does not matter. -/
theorem fetch_of_unknown {opcode : UInt8} (holds : ram.HoldsAt pc [opcode])
    (unknown : ∀ mnemonic : Mnemonic, mnemonic.opcode ≠ opcode) :
    ram.fetch profile pc = .error (.unknownOpcode opcode pc) := by
  have missing := Mnemonic.ofOpcode?_eq_none_iff.mpr unknown
  simp only [fetch, mnemonicAt, holds.read_eq, missing]
  rfl

/-- An instruction that goes on behind the memory is not fetched. Its operands are read one by one,
and the first that is missing is at the end of the memory. -/
theorem fetch_of_cutOff {mnemonic : Mnemonic} (holds : ram.HoldsAt pc [mnemonic.opcode])
    (behind : ram.size < pc + mnemonic.length profile) :
    ram.fetch profile pc = .error (.access (ram.refuse ram.size)) := by
  have inside := contains_iff.mp holds.contains
  rw [Mnemonic.length_eq] at behind
  have missing : ram.readMany (pc + 1) (mnemonic.encodedKinds profile).length =
      .error (ram.refuse ram.size) :=
    readMany_of_behind (by omega) (by omega)
  simp only [fetch, holds.mnemonicAt_eq, missing, bind, Except.bind]
  rfl

/-- **How a fetch ends**: the address lies outside the memory, or what stands there is no opcode, or
the opcode of an instruction that goes on behind the memory, or all bytes of an instruction. -/
theorem fetch_cases (ram : Ram) (profile : Profile) (pc : Int) :
    ¬ ram.contains pc = true ∨
      (∃ opcode, ram.HoldsAt pc [opcode] ∧ ∀ mnemonic : Mnemonic, mnemonic.opcode ≠ opcode) ∨
      (∃ mnemonic : Mnemonic, ram.HoldsAt pc [mnemonic.opcode] ∧
        ram.size < pc + mnemonic.length profile) ∨
      ∃ instruction : Instruction, instruction.Fits profile.encodesTargets ∧
        ram.HoldsAt pc instruction.bytes := by
  by_cases inside : ram.contains pc = true
  · obtain ⟨opcode, holds⟩ := exists_holdsAt inside
    cases found : Mnemonic.ofOpcode? opcode with
    | none => exact .inr (.inl ⟨opcode, holds, Mnemonic.ofOpcode?_eq_none_iff.mp found⟩)
    | some mnemonic =>
        obtain rfl := Mnemonic.opcode_of_ofOpcode? found
        by_cases behind : ram.size < pc + mnemonic.length profile
        · exact .inr (.inr (.inl ⟨mnemonic, holds, behind⟩))
        · refine .inr (.inr (.inr ?_))
          obtain ⟨back, stand⟩ := holds.drop_eq
          have enough : ¬ 1 + back.length < mnemonic.length profile := by
            have ends := holds.add_length_eq stand
            rw [List.length_singleton] at ends
            omega
          cases read : mnemonic.withOperands? profile.encodesTargets back with
          | none => exact absurd (Mnemonic.withOperands?_eq_none_iff.mp read) enough
          | some pair =>
              obtain ⟨rfl, fits, rfl⟩ := Mnemonic.eq_append_of_withOperands? read
              have whole : ram.cells.drop pc.toNat = pair.1.bytes ++ pair.2 := by
                rw [stand, Instruction.bytes, List.singleton_append, List.cons_append]
              exact ⟨pair.1, fits, holdsAt_of_drop_eq inside whole⟩
  · exact .inl inside

/-- What is **fetched** is the instruction whose bytes stand at the address, and it carries a target
exactly if it should. -/
theorem fetch_eq_ok_iff {instruction : Instruction} :
    ram.fetch profile pc = .ok instruction ↔
      instruction.Fits profile.encodesTargets ∧ ram.HoldsAt pc instruction.bytes := by
  constructor
  · intro fetched
    rcases ram.fetch_cases profile pc with
      outside | ⟨opcode, holds, unknown⟩ | ⟨mnemonic, holds, behind⟩ | ⟨other, fits, holds⟩
    · rw [fetch_of_not_contains outside] at fetched
      cases fetched
    · rw [fetch_of_unknown holds unknown] at fetched
      cases fetched
    · rw [fetch_of_cutOff holds behind] at fetched
      cases fetched
    · rw [fetch_of_holdsAt fits holds] at fetched
      cases fetched
      exact ⟨fits, holds⟩
  · exact fun ⟨fits, holds⟩ => fetch_of_holdsAt fits holds

end Ram

end ByteMachine
