import ByteMachine.Proofs.Machine.Faults
import ByteMachine.Proofs.Machine.Loaded

/-!
# Assembled programs stay on their lines

Where a program under true sizes carries its targets, the machine never leaves the boundaries of
its instruction lines, even if the memory holds only the front of the image. This is an invariant
of single steps. At a boundary in the memory stands the opcode of the line, or the zero behind the
image, so no opcode is unknown there. An instruction that is executed leads to the boundary behind
it or to that of a label. And what is cut off is cut off by the end of the memory, which the image
has then reached.

## Main results

* `Assembles.opcode_boundary`: what stands at a boundary.
* `Assembles.pcAfter_boundary`: from a boundary the machine goes on at a boundary, where its line
  leads.
* `Confined.step`: a step keeps a machine confined.
* `confined_stepTimes`: the program counter of an assembled program stays on its lines.
-/

namespace ByteMachine

/-- A machine is **confined** to the lines of a program in its memory: while it runs, its program
counter is a boundary in the memory, and its fault is none that a program does not have. -/
structure Confined (context : Context) (profile : Profile) (ram : Ram) (machine : Machine) :
    Prop where
  profile_eq : machine.profile = profile
  ram_eq : machine.ram = ram
  loaded : machine.status ≠ .idle
  inside : machine.status = .running → ram.contains machine.registers.pc = true
  boundary : machine.status = .running → ∃ index, machine.registers.pc = context.boundary index
  fault : ∀ fault, machine.status = .faulted fault → fault.cause.kind ≠ .unknownInstruction ∧
    (fault.cause.kind = .pcOutOfBounds → ram.size ≤ context.program.length)

/-- Where the line of an index **leads**: `EXIT` stays where it is, a branch may go to its label,
and what goes on goes on to the next line. -/
inductive Written.Leads (indexOf : Text → Nat) (index : Nat) (written : Written) : Nat → Prop
  | stays (exits : written = .exit) : Leads indexOf index written index
  | goesOn : Leads indexOf index written (index + 1)
  | branches {name : Text} (goes : written.label? = some name) :
      Leads indexOf index written (indexOf name)

/-! ### Boundaries -/

namespace Assembles

variable {profile : Profile} {maxLabels : Int} {source : Text} {program : List Written}
  {context : Context} (assembles : Assembles profile maxLabels source program context)
  {ram : Ram} {index : Nat}

include assembles

/-- The first bytes of an instruction stand at its boundary if there is memory for them, also where
the image has been cut off. -/
theorem holdsAt_boundary {written : Written} {bytes more : List UInt8}
    (there : program[index]? = some written)
    (split : (written.encode profile.encodesTargets context.byteOf).bytes = bytes ++ more)
    (inside : context.boundary index + bytes.length ≤ ram.size) :
    (ram.load context.program).HoldsAt (context.boundary index) bytes := by
  have front : (imageOf profile.encodesTargets context.byteOf (program.take index)).length =
      context.boundary index := by
    rw [length_imageOf, assembles.boundary_eq]
  have image := imageOf_eq_append there profile.encodesTargets context.byteOf
  rw [← assembles.program_eq, split, List.append_assoc] at image
  rw [← front] at inside ⊢
  exact Ram.holdsAt_load image inside

/-- **At a boundary** in the memory stands the opcode of the instruction line, or that of `EXIT`
behind the image. -/
theorem opcode_boundary (inside : context.boundary index < ram.size) :
    ∃ mnemonic : Mnemonic,
      (ram.load context.program).HoldsAt (context.boundary index) [mnemonic.opcode] ∧
      ((∃ written, program[index]? = some written ∧ written.mnemonic = mnemonic) ∨
        mnemonic = .exit) := by
  cases there : program[index]? with
  | some written =>
      let instruction := written.encode profile.encodesTargets context.byteOf
      have split : instruction.bytes = [written.mnemonic.opcode] ++ instruction.operands := by
        rw [Instruction.bytes, Written.mnemonic_encode]
        rfl
      exact ⟨_, assembles.holdsAt_boundary there split inside, .inl ⟨_, rfl, rfl⟩⟩
  | none =>
      have behind := assembles.boundary_of_length_le (List.getElem?_eq_none_iff.mp there)
      rw [behind] at inside ⊢
      exact ⟨.exit, Ram.holdsAt_behind inside, .inr rfl⟩

/-- From a boundary a line leads **to a boundary**: the next one, or that of the label which it
names. So a machine that starts at one is always at one. -/
theorem pcAfter_boundary (exact : profile.fixedSizing = false)
    (carries : profile.encodesTargets = true) {written : Written}
    (there : program[index]? = some written) {registers : Registers}
    (stands : registers.pc = context.boundary index) :
    ∃ next, written.Leads (indexOf (statements source)) index next ∧
      (written.encode profile.encodesTargets context.byteOf).pcAfter ram registers =
        context.boundary next := by
  have behind := assembles.boundary_succ there
  have target {name : Text} (goes : written.label? = some name) :=
    assembles.byteOf_eq_boundary exact carries (List.mem_of_getElem? there) goes
  rw [carries] at behind ⊢
  cases written with
  | exit => exact ⟨index, .stays rfl, stands⟩
  | jump name => exact ⟨_, .branches rfl, congrArg Nat.cast (target rfl)⟩
  | branchIf register value name =>
      simp only [Written.encode, if_true, Instruction.pcAfter]
      split
      · exact ⟨_, .branches rfl, congrArg Nat.cast (target rfl)⟩
      · refine ⟨index + 1, .goesOn, ?_⟩
        rw [behind, stands]
        rfl
  | _ =>
      refine ⟨index + 1, .goesOn, ?_⟩
      rw [behind, Written.encode, Instruction.pcAfter, stands]
      rfl

end Assembles

/-! ### Steps -/

section Step

variable {profile : Profile} {maxLabels : Int} {source : Text} {program : List Written}
  {context : Context} (assembles : Assembles profile maxLabels source program context)
  (exact : profile.fixedSizing = false) (carries : profile.encodesTargets = true)
  {ram : Ram} {machine : Machine} {index : Nat}
  (same : machine.profile = profile) (holds : machine.ram = ram.load context.program)
  (inside : context.boundary index < ram.size)
  (stands : machine.registers.pc = context.boundary index)

include assembles carries same holds inside stands

/-- What is refused at a boundary is a register, or the front of an instruction that the image
has lost. -/
theorem Machine.Refuses.of_boundary {kind : FaultKind} (refuses : machine.Refuses kind) :
    kind ≠ .unknownInstruction ∧ (kind = .pcOutOfBounds → ram.size ≤ context.program.length) := by
  obtain ⟨mnemonic, opcode, from_line⟩ := assembles.opcode_boundary inside
  rw [← holds, ← stands] at opcode
  cases refuses with
  | outside _ outside => exact absurd opcode.contains outside
  | unknown holds unknown => exact absurd (opcode.unique holds) (unknown mnemonic)
  | register _ _ _ => exact ⟨nofun, nofun⟩
  | @cutOff other there behind =>
      refine ⟨nofun, fun _ => ?_⟩
      obtain rfl := Mnemonic.opcode_inj (opcode.unique there)
      have length : mnemonic.reach machine.profile = mnemonic.length profile := by
        rcases mnemonic.reach_eq machine.profile with reach | ⟨-, short⟩
        · rw [reach, same]
        · rw [same, carries] at short
          cases short
      rw [length, stands, holds, Ram.size_load] at behind
      rcases from_line with ⟨written, line, rfl⟩ | rfl
      · have next := assembles.boundary_succ line
        have last := assembles.boundary_le (index + 1)
        rw [Written.length_encode] at next
        omega
      · have one : Mnemonic.exit.length profile = 1 := rfl
        omega

omit carries

/-- An instruction that is met at a boundary is the one that the line writes, or the zero behind
the image. -/
theorem Machine.Meets.eq_exit_or_encode {instruction : Instruction}
    (meets : machine.Meets instruction) :
    instruction = .exit ∨ ∃ written, program[index]? = some written ∧
      instruction = written.encode profile.encodesTargets context.byteOf := by
  obtain ⟨mnemonic, opcode, from_line⟩ := assembles.opcode_boundary inside
  rw [← holds, ← stands] at opcode
  have first : machine.ram.HoldsAt machine.registers.pc [instruction.mnemonic.opcode] :=
    Ram.HoldsAt.left meets.2
  obtain rfl := Mnemonic.opcode_inj (first.unique opcode)
  rcases from_line with ⟨written, line, row⟩ | row
  · -- The whole instruction is in the memory, so it is the one that the line writes.
    have room := meets.2.le_size.2
    rw [stands, holds, Ram.size_load, Instruction.length_bytes, meets.1.length_eq, same, ← row]
      at room
    have fits : context.boundary index +
        (written.encode profile.encodesTargets context.byteOf).bytes.length ≤ ram.size := by
      rw [Instruction.length_bytes, Written.length_encode]
      omega
    have whole := assembles.holdsAt_boundary line (List.append_nil _).symm fits
    have fetched := Ram.fetch_of_holdsAt (written.fits_encode _ context.byteOf) whole
    rw [← holds, ← stands, ← same, meets.fetch_eq] at fetched
    refine .inr ⟨written, line, ?_⟩
    rw [Except.ok.inj fetched, same]
  · cases instruction with
    | exit => exact .inl rfl
    | _ => cases row

include exact carries

/-- An instruction that is met at a boundary goes on at a boundary, since it is the one that the
line wrote. -/
theorem Machine.Meets.pcAfter_boundary {instruction : Instruction}
    (meets : machine.Meets instruction) :
    ∃ next, instruction.pcAfter machine.ram machine.registers = context.boundary next := by
  rcases meets.eq_exit_or_encode assembles same holds inside stands with
    rfl | ⟨written, line, rfl⟩
  · exact ⟨index, stands⟩
  · obtain ⟨next, -, arrives⟩ := assembles.pcAfter_boundary exact carries line stands
    exact ⟨next, arrives⟩

end Step

/-- What a machine becomes is confined if its new status allows for it, for a step does not write to
the memory. -/
theorem Confined.of_becomes {context : Context} {profile : Profile} {ram : Ram}
    {machine after : Machine} {registers : Registers} {shown : List (UInt8 × UInt8)}
    {status : Status} (confined : Confined context profile ram machine)
    (becomes : machine.Becomes registers shown status after) (loaded : status ≠ .idle)
    (inside : status = .running → ram.contains registers.pc = true)
    (boundary : status = .running → ∃ index, registers.pc = context.boundary index)
    (fault : ∀ fault, status = .faulted fault → fault.cause.kind ≠ .unknownInstruction ∧
      (fault.cause.kind = .pcOutOfBounds → ram.size ≤ context.program.length)) :
    Confined context profile ram after := by
  obtain ⟨profile_eq, ram_eq, rfl, -, rfl⟩ := becomes
  exact ⟨profile_eq.trans confined.profile_eq, ram_eq.trans confined.ram_eq, loaded, inside,
    boundary, fault⟩

section Run

variable {profile : Profile} {maxLabels : Int} {source : Text} {program : List Written}
  {context : Context} (assembles : Assembles profile maxLabels source program context)
  (exact : profile.fixedSizing = false) (carries : profile.encodesTargets = true)
  {ram : Ram} {machine : Machine}

include assembles exact carries

/-- Every step keeps a machine **confined**. It is made, since a boundary is an address that has a
numeral. -/
theorem Confined.step (confined : Confined context profile (ram.load context.program) machine) :
    ∃ transition, machine.step = .ok transition ∧
      Confined context profile (ram.load context.program) transition.machine := by
  by_cases runs : machine.status = .running
  · obtain ⟨index, stands⟩ := confined.boundary runs
    have inside := confined.inside runs
    have names : machine.NamesPc := Ram.names_of_contains (confined.ram_eq ▸ inside)
    refine ⟨machine.advanced, Machine.step_of_namesPc runs names, ?_⟩
    rw [stands, Ram.contains_natCast, Ram.size_load] at inside
    rcases machine.refuses_or_executes with
      ⟨kind, refuses⟩ | ⟨instruction, meets, halted | ⟨after, report, does, becomes⟩⟩ | unnamed
    · obtain ⟨cause, rfl, becomes⟩ := refuses.becomes
      have allowed := refuses.of_boundary assembles carries confined.profile_eq confined.ram_eq
        inside stands
      refine confined.of_becomes becomes nofun nofun nofun ?_
      rintro fault ⟨⟩
      rw [Ram.size_load]
      exact allowed
    · exact confined.of_becomes halted nofun nofun nofun nofun
    · obtain ⟨next, arrives⟩ := meets.pcAfter_boundary assembles exact carries
        confined.profile_eq confined.ram_eq inside stands
      rw [← does.pc] at arrives
      rw [runs, confined.ram_eq] at becomes
      by_cases stays : (ram.load context.program).contains after.pc = true
      · rw [if_pos stays] at becomes
        exact confined.of_becomes becomes nofun (fun _ => stays) (fun _ => ⟨next, arrives⟩) nofun
      · rw [if_neg stays] at becomes
        refine confined.of_becomes becomes nofun nofun nofun ?_
        rintro fault ⟨⟩
        refine ⟨nofun, fun _ => ?_⟩
        -- The image reaches as far as its last boundary, and this one is outside the memory.
        have last := assembles.boundary_le next
        rw [arrives, Ram.contains_natCast] at stays
        omega
    · exact absurd names unnamed
  · exact ⟨_, Machine.step_of_stopped confined.loaded runs, confined⟩

/-- Any number of steps keeps a machine confined, by induction on the steps. -/
theorem Confined.stepTimes (confined : Confined context profile (ram.load context.program) machine)
    (steps : Nat) : ∃ reached, machine.stepTimes steps = .ok reached ∧
      Confined context profile (ram.load context.program) reached := by
  induction steps generalizing machine with
  | zero => exact ⟨machine, rfl, confined⟩
  | succ steps ih =>
      obtain ⟨transition, made, next⟩ := confined.step assembles exact carries
      obtain ⟨reached, arrived, last⟩ := ih next
      refine ⟨reached, ?_, last⟩
      rw [Machine.stepTimes, made]
      exact arrived

omit exact carries

/-- The machine that has just loaded a program is confined to it: it stands at the first
boundary. -/
theorem confined_load (positive : 0 < machine.ram.size) :
    Confined context machine.profile (machine.ram.load context.program)
      (machine.load context.program) where
  profile_eq := rfl
  ram_eq := machine.ram_load _
  loaded := nofun
  inside _ := by
    have start : (0 : Nat) < (machine.ram.load context.program).size := by
      rw [Ram.size_load]
      exact positive
    exact Ram.contains_natCast.mpr start
  boundary _ := by
    refine ⟨0, ?_⟩
    rw [assembles.boundary_eq]
    rfl
  fault := nofun

end Run

/-- **An assembled program stays on its lines**, under true sizes and with targets carried, whether
or not the memory holds all of it. While the machine runs, its program counter is the address of an
entry of the listing or the end of the image. It never meets an unknown opcode, and it leaves the
memory only if the image fills that. -/
theorem confined_stepTimes (machine : Machine) (text : Text) (maxLabels maxProgramSize : Int)
    {context : Context} (exact : machine.profile.fixedSizing = false)
    (carries : machine.profile.encodesTargets = true) (positive : 0 < machine.ram.size)
    (assembled : (assemble machine.profile text maxLabels maxProgramSize).result = .ok context)
    (steps : Nat) :
    ∃ reached, (machine.load context.program).stepTimes steps = .ok reached ∧
      (reached.status = .running →
        (∃ entry ∈ context.listing, reached.registers.pc = entry.address) ∨
          reached.registers.pc = context.program.length) ∧
      ∀ fault, reached.status = .faulted fault → fault.cause.kind ≠ .unknownInstruction ∧
        (fault.cause.kind = .pcOutOfBounds → machine.ram.size ≤ context.program.length) := by
  obtain ⟨program, assembles⟩ := exists_assembles assembled
  obtain ⟨reached, arrived, confined⟩ :=
    (confined_load assembles positive).stepTimes assembles exact carries steps
  refine ⟨reached, arrived, ?_, ?_⟩
  · intro runs
    obtain ⟨index, stands⟩ := confined.boundary runs
    rw [Context.boundary] at stands
    split at stands
    · rename_i entry there
      exact .inl ⟨entry, List.mem_of_getElem? there, stands⟩
    · exact .inr stands
  · intro fault faulted
    have allowed := confined.fault fault faulted
    rw [Ram.size_load] at allowed
    exact allowed

/-- A program whose last instruction is cut in two stays on its lines, although the memory ends
inside of it. -/
theorem exists_confined_cutOff :
    let text := "JMP END\nSTORE R0, 1\nEND:\nDPR R0".toList
    let machine := Machine.zeroed .resolved 20 6
    ∃ context, (assemble .resolved text 50 256).result = .ok context ∧
      machine.ram.size < context.program.length ∧
      ∀ steps, ∃ reached, (machine.load context.program).stepTimes steps = .ok reached ∧
        (reached.status = .running →
          (∃ entry ∈ context.listing, reached.registers.pc = entry.address) ∨
            reached.registers.pc = context.program.length) ∧
        ∀ fault, reached.status = .faulted fault → fault.cause.kind ≠ .unknownInstruction ∧
          (fault.cause.kind = .pcOutOfBounds → machine.ram.size ≤ context.program.length) := by
  intro text machine
  have worked : (assemble .resolved text 50 256).result.toOption.any
      (fun context => 6 < context.program.length) = true := by decide +kernel
  obtain ⟨context, assembled, cut⟩ := exists_context_of_any worked
  have size : machine.ram.size = 6 := List.length_replicate
  refine ⟨context, assembled, size ▸ of_decide_eq_true cut, ?_⟩
  exact confined_stepTimes machine text 50 256 rfl rfl (size ▸ Nat.succ_pos 5) assembled

end ByteMachine
