import ByteMachine.Proofs.Disassembly.Partition
import ByteMachine.Proofs.Machine.Loaded

/-!
# Fetching is exact and local

What a fetch gives is fixed by the bytes that can be read from the address on, one by one, and by
nothing else of the memory. If the opcode can be read, the table says how many bytes the
instruction takes. If all of them can be read, the fetch gives the instruction that they spell; and
if not, it fails at the first that is missing, which is always the one right behind the memory.

An address is the business of the memory in one more way. The error of a fetch from outside carries
the address and shows it in its message, so a fetch fails for another reason where the memory cannot
name the address.

So it does not matter how large the memory is and what else it holds. A disassembler that reads an
image from a memory of just its size, and a machine that has loaded the image into a larger memory
or a smaller one, find the same instruction wherever both of them find all of its bytes.

## Main results

* `Ram.holdsAt_iff_read`: bytes stand where they can be read one by one.
* `Ram.fetch_eq_iff_finds`: how a fetch ends, by what can be read.
* `Ram.fetch_eq_of_read_eq`: two memories with the same bytes there.
* `fetch_exact_local`: all of it, and what it says about a disassembly.
-/

namespace ByteMachine

/-! ### What should be found -/

/-- An instruction **stands in** a memory at an address: its opcode can be read there, all of its
bytes lie in the memory, and behind the opcode stand operands of the kinds that the table tells, the
label left out unless it is encoded. -/
structure Instruction.StandsIn (instruction : Instruction) (ram : Ram) (profile : Profile)
    (pc : Int) : Prop where
  opcode : ram.read pc = .ok instruction.mnemonic.opcode
  inside : pc + instruction.mnemonic.length profile ≤ ram.size
  length_eq : instruction.length = instruction.mnemonic.length profile
  kinds_eq : instruction.kinds = instruction.mnemonic.encodedKinds profile
  operands_eq : instruction.operands.map .ok =
    (List.range (instruction.mnemonic.length profile - 1)).map fun i : Nat => ram.read (pc + 1 + i)

/-- What is to be **found** at an address: nothing outside the memory, nothing at a byte that is no
opcode, nothing where the instruction that begins there goes on behind the memory, and otherwise the
instruction that stands there. -/
inductive Ram.Finds (ram : Ram) (profile : Profile) (pc : Int) :
    Except FetchError Instruction → Prop
  | outside : ¬ (0 ≤ pc ∧ pc < ram.size) → ram.Names pc →
      Finds ram profile pc (.error (.access (ram.namedError pc)))
  | unnamed : ¬ (0 ≤ pc ∧ pc < ram.size) → ¬ ram.Names pc →
      Finds ram profile pc (.error (.access (.unnamed {})))
  | unknown {byte : UInt8} : ram.read pc = .ok byte → Mnemonic.ofOpcode? byte = none →
      Finds ram profile pc (.error (.unknownOpcode byte pc))
  | cutOff {mnemonic : Mnemonic} : ram.read pc = .ok mnemonic.opcode →
      ram.size < pc + mnemonic.length profile →
      Finds ram profile pc (.error (.access (ram.namedError ram.size)))
  | instruction {found : Instruction} : found.StandsIn ram profile pc →
      Finds ram profile pc (.ok found)

/-! ### Byte by byte -/

namespace Ram

variable {ram first second : Ram} {profile : Profile} {pc : Int} {byte : UInt8} {bytes : List UInt8}

/-- A byte that is read at an address stands there, for reading does not make it up. -/
theorem holdsAt_of_read (reads : ram.read pc = .ok byte) : ram.HoldsAt pc [byte] := by
  have inside : ram.contains pc = true := by
    by_contra outside
    rw [read_of_not_contains outside] at reads
    cases reads
  obtain ⟨other, holds⟩ := exists_holdsAt inside
  obtain rfl : byte = other := Except.ok.inj (reads.symm.trans holds.read_eq)
  exact holds

/-- Bytes **stand** at an address exactly if they can be read from there on, one by one. This
connects the cells of a memory with what a fetch sees of them. -/
theorem holdsAt_iff_read (nonempty : bytes ≠ []) :
    ram.HoldsAt pc bytes ↔
      ∀ (i : Nat) (byte : UInt8), bytes[i]? = some byte → ram.read (pc + i) = .ok byte := by
  constructor
  · intro holds i byte found
    obtain ⟨short, rfl⟩ := List.getElem?_eq_some_iff.mp found
    have split : bytes = bytes.take i ++ ([bytes[i]] ++ bytes.drop (i + 1)) := by
      rw [List.singleton_append, List.getElem_cons_drop, List.take_append_drop]
    rw [split] at holds
    have there := holds.right.left.read_eq
    rwa [List.length_take_of_le (Nat.le_of_lt short)] at there
  · intro reads
    obtain ⟨byte, rest, rfl⟩ := List.exists_cons_of_ne_nil nonempty
    have here := reads 0 byte rfl
    rw [Int.natCast_zero, Int.add_zero] at here
    have inside := (holdsAt_of_read here).contains
    obtain ⟨positive, -⟩ := contains_iff.mp inside
    have front : byte :: rest <+: ram.cells.drop pc.toNat := by
      refine List.prefix_iff_getElem?.mpr fun i short => ?_
      have there := holdsAt_of_read (reads i _ (List.getElem?_eq_getElem short))
      obtain ⟨back, stand⟩ := there.drop_eq
      have place : (pc + i).toNat = pc.toNat + i := by omega
      rw [List.getElem?_drop, ← place, ← List.head?_drop, stand]
      rfl
    obtain ⟨back, stand⟩ := front
    exact holdsAt_of_drop_eq inside stand.symm

end Ram

namespace Instruction

variable {instruction : Instruction} {ram : Ram} {profile : Profile} {pc : Int}

/-- An instruction fits an encoding exactly if it has operands of the kinds that are encoded. -/
theorem fits_iff_kinds_eq : instruction.Fits profile.encodesTargets ↔
    instruction.kinds = instruction.mnemonic.encodedKinds profile := by
  rw [Mnemonic.encodedKinds]
  cases instruction with
  | branchIf register value address =>
      cases address <;> cases profile.encodesTargets <;>
        simp [Fits, kinds, fields, mnemonic, Mnemonic.operandKinds]
  | jump address =>
      cases address <;> cases profile.encodesTargets <;>
        simp [Fits, kinds, fields, mnemonic, Mnemonic.operandKinds]
  | _ =>
      cases profile.encodesTargets <;>
        simp [Fits, kinds, fields, mnemonic, Mnemonic.operandKinds]

/-- An instruction stands in a memory exactly if it fits the encoding and its bytes stand
there. -/
theorem standsIn_iff : instruction.StandsIn ram profile pc ↔
    instruction.Fits profile.encodesTargets ∧ ram.HoldsAt pc instruction.bytes := by
  have count : instruction.operands.length = instruction.length - 1 := by
    rw [length]
    omega
  have nonempty : instruction.bytes ≠ [] := List.cons_ne_nil _ _
  rw [Ram.holdsAt_iff_read nonempty]
  constructor
  · intro stands
    refine ⟨fits_iff_kinds_eq.mpr stands.kinds_eq, fun i byte found => ?_⟩
    cases i with
    | zero =>
        rw [Int.natCast_zero, Int.add_zero, stands.opcode]
        exact congrArg Except.ok (Option.some.inj found)
    | succ i =>
        have behind : instruction.operands[i]? = some byte := found
        have same := congrArg (·[i]?) stands.operands_eq
        simp only [List.getElem?_map, behind, Option.map_some] at same
        have short : i < instruction.mnemonic.length profile - 1 := by
          have := (List.getElem?_eq_some_iff.mp behind).1
          rwa [count, stands.length_eq] at this
        rw [List.getElem?_range short, Option.map_some, Option.some.injEq] at same
        rw [same]
        congr 1
        omega
  · rintro ⟨fits, reads⟩
    have holds := (Ram.holdsAt_iff_read nonempty).mpr reads
    refine ⟨?_, ?_, fits.length_eq, fits_iff_kinds_eq.mp fits, ?_⟩
    · have here := reads 0 instruction.mnemonic.opcode rfl
      rwa [Int.natCast_zero, Int.add_zero] at here
    · rw [← fits.length_eq, ← instruction.length_bytes]
      exact holds.le_size.2
    · rw [← fits.length_eq, ← count]
      refine List.ext_getElem? fun i => ?_
      rw [List.getElem?_map, List.getElem?_map]
      by_cases short : i < instruction.operands.length
      · have there := reads (i + 1) _ (List.getElem?_eq_getElem short)
        have place : pc + ((i + 1 : Nat) : Int) = pc + 1 + i := by omega
        rw [place] at there
        rw [List.getElem?_eq_getElem short, List.getElem?_range short, Option.map_some,
          Option.map_some, there]
      · rw [List.getElem?_eq_none (Nat.le_of_not_lt short),
          List.getElem?_eq_none (by rw [List.length_range]; omega)]
        rfl

end Instruction

/-! ### Fetching -/

namespace Ram

variable {ram first second : Ram} {profile : Profile} {pc : Int}

/-- What a fetch **gives** is what is to be found, and only that: the cases are exhaustive and
exclude each other. -/
theorem fetch_eq_iff_finds {outcome : Except FetchError Instruction} :
    ram.fetch profile pc = outcome ↔ ram.Finds profile pc outcome := by
  constructor
  · rintro rfl
    rcases ram.fetch_cases profile pc with
      outside | ⟨opcode, holds, unknown⟩ | ⟨mnemonic, holds, behind⟩ | ⟨instruction, fits, holds⟩
    · rw [fetch_of_not_contains outside]
      by_cases names : ram.Names pc
      · rw [refuse_of_names names]
        exact .outside (mt contains_iff.mpr outside) names
      · rw [refuse_of_not_names names]
        exact .unnamed (mt contains_iff.mpr outside) names
    · rw [fetch_of_unknown holds unknown]
      exact .unknown holds.read_eq (Mnemonic.ofOpcode?_eq_none_iff.mpr unknown)
    · rw [fetch_of_cutOff holds behind, refuse_of_names ram.names_size]
      exact .cutOff holds.read_eq behind
    · rw [fetch_of_holdsAt fits holds]
      exact .instruction (Instruction.standsIn_iff.mpr ⟨fits, holds⟩)
  · intro finds
    cases finds with
    | outside outside names =>
        rw [fetch_of_not_contains (mt contains_iff.mp outside), refuse_of_names names]
    | unnamed outside unnamed =>
        rw [fetch_of_not_contains (mt contains_iff.mp outside), refuse_of_not_names unnamed]
    | unknown reads unknown =>
        exact fetch_of_unknown (holdsAt_of_read reads) (Mnemonic.ofOpcode?_eq_none_iff.mp unknown)
    | cutOff reads behind =>
        rw [fetch_of_cutOff (holdsAt_of_read reads) behind, refuse_of_names ram.names_size]
    | instruction stands => exact fetch_eq_ok_iff.mpr (Instruction.standsIn_iff.mp stands)

/-- A profile that is chosen by its name changes nothing, if there is one of that name. -/
theorem fetchBy_of_resolve {choice : ProfileRef} (resolved : choice.resolve = .ok profile) :
    ram.fetchBy choice pc = (ram.fetch profile pc).mapError .inr := by
  have known {mnemonic : Mnemonic} (holds : ram.HoldsAt pc [mnemonic.opcode]) :
      ram.fetchBy choice pc = (ram.fetch profile pc).mapError .inr := by
    rw [fetchBy, mnemonicAt, holds.read_eq, resolved]
    simp only [Mnemonic.ofOpcode?_opcode]
    rfl
  rcases ram.fetch_cases profile pc with
    outside | ⟨opcode, holds, unknown⟩ | ⟨mnemonic, holds, -⟩ | ⟨instruction, -, holds⟩
  · rw [fetch_of_not_contains outside, fetchBy, mnemonicAt, read_of_not_contains outside]
    rfl
  · rw [fetch_of_unknown holds unknown, fetchBy, mnemonicAt, holds.read_eq]
    simp only [Mnemonic.ofOpcode?_eq_none_iff.mpr unknown]
    rfl
  · exact known holds
  · have stands : ram.HoldsAt pc ([instruction.mnemonic.opcode] ++ instruction.operands) := holds
    exact known stands.left

/-- Two memories from which **the same bytes** can be read, as many as the instruction takes that
begins there, give the same instruction, whatever their sizes and their other bytes. -/
theorem fetch_eq_of_read_eq {mnemonic : Mnemonic} (opcode : first.read pc = .ok mnemonic.opcode)
    (same : ∀ i : Nat, i < mnemonic.length profile →
      first.contains (pc + i) = true ∧ second.read (pc + i) = first.read (pc + i)) :
    ∃ instruction, first.fetch profile pc = .ok instruction ∧
      second.fetch profile pc = .ok instruction := by
  have holds := holdsAt_of_read opcode
  have inside : pc + mnemonic.length profile ≤ first.size := by
    -- It is the last byte that tells.
    have last : mnemonic.length profile - 1 < mnemonic.length profile := by
      rw [Mnemonic.length_eq]
      omega
    have within := (contains_iff.mp (same _ last).1).2
    omega
  rcases first.fetch_cases profile pc with
    outside | ⟨byte, other, unknown⟩ | ⟨other, stands, behind⟩ | ⟨instruction, fits, stands⟩
  · exact absurd holds.contains outside
  · exact absurd (holds.unique other) (unknown mnemonic)
  · obtain rfl : mnemonic = other := Mnemonic.opcode_inj (holds.unique stands)
    omega
  · refine ⟨instruction, fetch_of_holdsAt fits stands, ?_⟩
    have front : first.HoldsAt pc ([instruction.mnemonic.opcode] ++ instruction.operands) := stands
    obtain rfl : mnemonic = instruction.mnemonic :=
      Mnemonic.opcode_inj (holds.unique front.left)
    have nonempty : instruction.bytes ≠ [] := List.cons_ne_nil _ _
    refine fetch_of_holdsAt fits ((holdsAt_iff_read nonempty).mpr ?_)
    intro i byte found
    have short : i < instruction.mnemonic.length profile := by
      rw [← fits.length_eq, ← instruction.length_bytes]
      exact (List.getElem?_eq_some_iff.mp found).1
    rw [(same i short).2]
    exact (holdsAt_iff_read nonempty).mp stands i byte found

/-- An instruction that a disassembly shows is fetched from any memory that the image is loaded
into, if the memory reaches behind it. -/
theorem fetch_load_of_mem_disassemble {image : List UInt8} {row : DisassemblyRow}
    {instruction : Instruction} (inside : row ∈ disassemble profile image)
    (shows : row.instruction? = some instruction)
    (reaches : row.offset + instruction.length ≤ ram.size) :
    (ram.load image).fetch profile row.offset = .ok instruction := by
  obtain ⟨i, found⟩ := List.mem_iff_getElem?.mp inside
  obtain ⟨rest, split, first⟩ := (disassembles _ 0 image).firstRow found
  rw [Nat.zero_add] at first
  cases first with
  | data _ => cases shows
  | @instruction shown behind fits =>
      cases shows
      refine fetch_of_holdsAt fits (holdsAt_load split ?_)
      rwa [Instruction.length_bytes]

end Ram

/-- **Fetching is exact and local.** Under any profile, whether it is given or chosen by its name, a
fetch from any memory at any integer gives what is to be found there and nothing else; the error of
a fetch from outside the memory carries the address, unless that is too long to be written. So two
memories that both contain the bytes of an instruction at an address, and the same bytes, give the
same instruction there; and an instruction that a disassembly of an image shows is the one that is
fetched at its offset from a memory that has loaded the image, also where the memory is longer than
the image, or so short that it ends right behind the instruction. -/
theorem fetch_exact_local (profile : Profile) (pc : Int) :
    (∀ (ram : Ram) (outcome : Except FetchError Instruction),
        ram.fetch profile pc = outcome ↔ ram.Finds profile pc outcome) ∧
      (∀ (ram : Ram) (choice : ProfileRef), choice.resolve = .ok profile →
        ram.fetchBy choice pc = (ram.fetch profile pc).mapError .inr) ∧
      (∀ (first second : Ram) (mnemonic : Mnemonic), first.read pc = .ok mnemonic.opcode →
        (∀ i : Nat, i < mnemonic.length profile → first.contains (pc + i) = true ∧
          second.contains (pc + i) = true ∧ second.read (pc + i) = first.read (pc + i)) →
        ∃ instruction, first.fetch profile pc = .ok instruction ∧
          second.fetch profile pc = .ok instruction) ∧
      ∀ (ram : Ram) (image : List UInt8) (row : DisassemblyRow) (instruction : Instruction),
        row ∈ disassemble profile image → row.instruction? = some instruction →
        row.offset + instruction.length ≤ ram.size →
        (ram.load image).fetch profile row.offset = .ok instruction := by
  refine ⟨fun ram outcome => Ram.fetch_eq_iff_finds, fun ram choice => Ram.fetchBy_of_resolve, ?_,
    fun ram image row instruction => Ram.fetch_load_of_mem_disassemble⟩
  intro first second mnemonic opcode same
  refine Ram.fetch_eq_of_read_eq opcode fun i short => ?_
  obtain ⟨inside, -, reads⟩ := same i short
  exact ⟨inside, reads⟩

/-- An addition in the middle of an image is fetched from a memory that ends right behind it and
from one that is longer than the image. The jump at the end of the image lacks its target, and the
byte that is missing is the one right behind the memory. -/
theorem exists_fetched_addition :
    let image : List UInt8 := [0x07, 1, 0x03, 0, 1, 9, 0x06]
    let row : DisassemblyRow := ⟨2, [0x03, 0, 1, 9], some (.add 0 1 9)⟩
    row ∈ disassemble .resolved image ∧
      ((Ram.zeroed 6).load image).fetch .resolved 2 = .ok (.add 0 1 9) ∧
      ((Ram.zeroed 16).load image).fetch .resolved 2 = .ok (.add 0 1 9) ∧
      ((Ram.zeroed 7).load image).Finds .resolved 6
        (.error (.access (.outside ⟨7, 7, "Address 7 outside RAM (size 7)"⟩))) := by
  intro image row
  have inside : row ∈ disassemble .resolved image := by decide +kernel
  obtain ⟨-, -, -, shown⟩ := fetch_exact_local .resolved 2
  obtain ⟨exact, -⟩ := fetch_exact_local .resolved 6
  exact ⟨inside, shown (.zeroed 6) image row _ inside rfl (by decide),
    shown (.zeroed 16) image row _ inside rfl (by decide),
    (exact ((Ram.zeroed 7).load image) _).mp (by decide +kernel)⟩

/-- Not every fetch from outside a memory fails with the address: that from the first integer
which is too long to be written does not. -/
theorem not_forall_fetch_outside :
    ¬ ∀ (ram : Ram) (profile : Profile) (pc : Int), ¬ (0 ≤ pc ∧ pc < ram.size) →
      ∃ message, ram.fetch profile pc = .error (.access (.outside ⟨pc, ram.size, message⟩)) := by
  intro all
  have long : ¬ (Ram.zeroed 4).Names Text.firstLong := Ram.not_names_firstLong (by decide)
  have missed : ¬ (Ram.zeroed 4).contains Text.firstLong = true := mt Ram.names_of_contains long
  obtain ⟨message, fetched⟩ :=
    all (.zeroed 4) .classic Text.firstLong (mt Ram.contains_iff.mpr missed)
  rw [Ram.fetch_of_not_contains missed, Ram.refuse_of_not_names long] at fetched
  cases fetched

end ByteMachine
