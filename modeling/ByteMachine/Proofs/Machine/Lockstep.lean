import ByteMachine.Proofs.Machine.Faults
import ByteMachine.Proofs.Machine.Loaded
import ByteMachine.Proofs.Machine.Source

/-!
# Assembled programs run as they are written

A machine that has loaded the image of a program makes the same steps as the source machine, if
the profile has true sizes and carries targets. After every number of steps the two are in
`Lockstep`: the same registers, the same observations, the program counter at the boundary of the
instruction that the source machine stands at, and the status that corresponds to its own.

A simulation needs more than what it promises. `Simulates` adds what a single step relies on: the
profile and the memory are still those of the start, and while the source machine runs there is
something at its index, an instruction or the zeros behind the image.

## Main results

* `Simulates.arrive`: a step that is done keeps the two machines together.
* `Simulates.step`: so does every step.
* `lockstep_stepTimes`: an assembled program runs as it is written.
-/

namespace ByteMachine

/-- A register that is shown with its value, the value as a number. -/
def shownNumber (shown : UInt8 × UInt8) : UInt8 × Int :=
  (shown.1, numberOf shown.2)

/-- The **source program** of lines that write instructions, with the index of each label. -/
def SourceProgram.ofLines (lines : List Line) (instructions : List Written) (room : Bool) :
    SourceProgram :=
  ⟨instructions, ByteMachine.indexOf (lines.map Line.statement), room⟩

/-- The **status** that a machine with the image of the program has for that of a source machine.
A fault is that of the instruction that has met it. -/
def SourceMachine.statusIn (context : Context) (source : SourceMachine) : Status :=
  match source.status with
  | .running => .running
  | .halted => .halted
  | .invalidRegister register =>
    .faulted ⟨.invalidRegister register source.values.length, context.boundary source.index⟩
  | .pastEnd last => .faulted ⟨.outOfBounds context.program.length, context.boundary last⟩

/-- A machine is in **lockstep** with a source machine: it stands at the boundary of the same line,
with the same numbers in its registers. -/
structure Lockstep (context : Context) (source : SourceMachine) (machine : Machine) : Prop where
  values : source.values = machine.registers.values.map numberOf
  observations : source.observations = machine.observations.map shownNumber
  pc : machine.registers.pc = context.boundary source.index
  status : machine.status = source.statusIn context

/-- A memory is **loaded** with the image of a source program: what stands at the boundaries, where
they are, and which of them lie in the memory. -/
structure Loaded (context : Context) (profile : Profile) (ram : Ram) (program : SourceProgram) :
    Prop where
  fetch : ∀ {index : Nat} {written : Written}, program.instructions[index]? = some written →
    ram.fetch profile (context.boundary index) = .ok (written.encode true context.byteOf)
  fetch_end : program.room = true → ram.fetch profile context.program.length = .ok .exit
  boundary_succ : ∀ {index : Nat} {written : Written}, program.instructions[index]? = some written →
    context.boundary (index + 1) =
      context.boundary index + (written.encode true context.byteOf).length
  boundary_end : ∀ {index : Nat}, program.instructions.length ≤ index →
    context.boundary index = context.program.length
  target : ∀ {written : Written}, written ∈ program.instructions → ∀ {name : Text},
    written.label? = some name →
      (context.byteOf name).toNat = context.boundary (program.indexOf name)
  contains_iff : ∀ index : Nat, ram.contains (context.boundary index) = true ↔
    index < program.instructions.length ∨ program.room = true

/-- A machine **simulates** a source machine: it is in lockstep with it, has kept its profile and
its memory, and the source machine stands inside its program while it runs. -/
structure Simulates (context : Context) (profile : Profile) (ram : Ram) (program : SourceProgram)
    (source : SourceMachine) (machine : Machine) : Prop
    extends Lockstep context source machine where
  profile_eq : machine.profile = profile
  ram_eq : machine.ram = ram
  inside : source.status = .running →
    source.index < program.instructions.length ∨ program.room = true

/-! ### Registers as numbers -/

variable {context : Context} {source : SourceMachine} {machine : Machine}

/-- The value of a register is the same in both machines, or the register exists in neither. -/
theorem Lockstep.getElem?_values (lockstep : Lockstep context source machine)
    (register : UInt8) :
    source.values[register.toNat]? = (machine.registers.get? register).map numberOf := by
  rw [lockstep.values, List.getElem?_map]
  rfl

theorem Lockstep.length_values (lockstep : Lockstep context source machine) :
    source.values.length = machine.registers.count := by
  rw [lockstep.values, List.length_map]
  rfl

theorem Lockstep.values_set (lockstep : Lockstep context source machine) (register value : UInt8) :
    (source.set register (numberOf value)).values =
      (machine.registers.set register value).values.map numberOf := by
  rw [SourceMachine.set, lockstep.values, Registers.set, List.map_set]

/-! ### One step -/

section Step

variable {profile : Profile} {ram : Ram} {program : SourceProgram}

/-- What a machine becomes keeps it together with what the source machine has moved to. All cases of
a step go through this lemma. -/
theorem Simulates.of_becomes (simulates : Simulates context profile ram program source machine)
    {registers : Registers} {shown : List (UInt8 × UInt8)} {status : Status} {after : Machine}
    (becomes : machine.Becomes registers shown status after) {moved : SourceMachine}
    (values : moved.values = registers.values.map numberOf)
    (observations : moved.observations = source.observations ++ shown.map shownNumber)
    (pc : registers.pc = context.boundary moved.index) (same : status = moved.statusIn context)
    (inside : moved.status = .running →
      moved.index < program.instructions.length ∨ program.room = true) :
    Simulates context profile ram program moved after where
  values := by rw [becomes.registers_eq, values]
  observations := by
    rw [becomes.observations_eq, observations, simulates.observations, List.map_append]
  pc := by rw [becomes.registers_eq, pc]
  status := by rw [becomes.status_eq, same]
  profile_eq := by rw [becomes.profile_eq, simulates.profile_eq]
  ram_eq := by rw [becomes.ram_eq, simulates.ram_eq]
  inside := inside

variable (loaded : Loaded context profile ram program)
  (simulates : Simulates context profile ram program source machine) {instruction : Instruction}

include simulates

/-- A step that halts keeps the two machines together, with one step counted on both sides. -/
theorem Simulates.halt (fetched : ram.fetch profile machine.registers.pc = .ok instruction)
    (executed : instruction.execute ram machine.registers = .halt) :
    Simulates context profile ram program (source.stop .halted) machine.advanced.machine := by
  rw [← simulates.ram_eq, ← simulates.profile_eq] at fetched
  rw [← simulates.ram_eq] at executed
  exact simulates.of_becomes (Machine.advance_of_halt fetched executed) simulates.values
    (List.append_nil _).symm simulates.pc rfl nofun

/-- A step that needs a register which does not exist keeps the two machines together. -/
theorem Simulates.invalidRegister {register : UInt8}
    (fetched : ram.fetch profile machine.registers.pc = .ok instruction)
    (executed : instruction.execute ram machine.registers = .invalidRegister register) :
    Simulates context profile ram program (source.stop (.invalidRegister register))
      machine.advanced.machine := by
  rw [← simulates.ram_eq, ← simulates.profile_eq] at fetched
  rw [← simulates.ram_eq] at executed
  have becomes := Machine.advance_of_invalidRegister fetched executed
  rw [← simulates.length_values, simulates.pc] at becomes
  exact simulates.of_becomes becomes simulates.values (List.append_nil _).symm simulates.pc rfl
    nofun

include loaded

/-- A step that is **done** keeps the two machines together: the program counter of the machine is
at a boundary, and the source machine goes on at the index of that. -/
theorem Simulates.arrive {registers : Registers} {report : Report} {moved : SourceMachine}
    {index : Nat} (runs : source.status = .running)
    (fetched : ram.fetch profile machine.registers.pc = .ok instruction)
    (executed : instruction.execute ram machine.registers = .next registers report)
    (stands : moved.index = source.index) (still : moved.status = .running)
    (values : moved.values = registers.values.map numberOf)
    (observations : moved.observations = source.observations ++ report.shown.map shownNumber)
    (pc : registers.pc = context.boundary index) :
    Simulates context profile ram program (program.goTo moved index) machine.advanced.machine := by
  rw [← simulates.ram_eq, ← simulates.profile_eq] at fetched
  rw [← simulates.ram_eq] at executed
  have becomes := Machine.advance_of_next fetched executed
  rw [simulates.ram_eq, pc] at becomes
  rw [SourceProgram.goTo]
  by_cases inside : index < program.instructions.length ∨ program.room = true
  · rw [if_pos ((loaded.contains_iff index).mpr inside), simulates.status] at becomes
    rw [if_pos inside]
    refine simulates.of_becomes becomes values observations pc ?_ fun _ => inside
    rw [SourceMachine.statusIn, runs, SourceMachine.statusIn, still]
  · -- No instruction and no room: the boundary is the end of the image, outside the memory.
    have behind := Nat.le_of_not_lt fun inner => inside (.inl inner)
    rw [if_neg (mt (loaded.contains_iff index).mp inside), loaded.boundary_end behind,
      simulates.pc] at becomes
    rw [if_neg inside]
    refine simulates.of_becomes becomes values observations pc ?_ nofun
    rw [SourceMachine.statusIn, stands]

variable {written : Written} (runs : source.status = .running)
  (there : program.instructions[source.index]? = some written)

include there

/-- The machine fetches the encoding of the instruction that the source machine stands at. -/
theorem Simulates.fetch_eq :
    ram.fetch profile machine.registers.pc = .ok (written.encode true context.byteOf) := by
  rw [simulates.pc]
  exact loaded.fetch there

/-- Going on behind as many bytes as the instruction has leads to the next boundary. -/
theorem Simulates.pc_behind {length : Int}
    (long : (written.encode true context.byteOf).length = length) :
    machine.registers.pc + length = context.boundary (source.index + 1) := by
  rw [simulates.pc, loaded.boundary_succ there, Int.natCast_add, long]

include runs

theorem Simulates.assign {register value : UInt8}
    (long : (written.encode true context.byteOf).length = 3)
    (executed : (written.encode true context.byteOf).execute ram machine.registers =
      machine.registers.assign register value) :
    Simulates context profile ram program (program.assign source register value)
      machine.advanced.machine := by
  have fetched := simulates.fetch_eq loaded there
  rw [SourceProgram.assign, simulates.getElem?_values]
  rw [Registers.assign] at executed
  cases found : machine.registers.get? register with
  | none =>
      simp only [found] at executed
      exact simulates.invalidRegister fetched executed
  | some old =>
      simp only [found] at executed
      exact simulates.arrive loaded runs fetched executed rfl runs
        (simulates.values_set register value) (List.append_nil _).symm
        (simulates.pc_behind loaded there (congrArg Nat.cast long))

/-- Changing a register by another one keeps the two machines together: bytes are added as numbers
are, modulo 256. -/
theorem Simulates.combine {target other : UInt8} {f : UInt8 → UInt8 → UInt8} {g : Int → Int → Int}
    (same : ∀ a b, numberOf (f a b) = g (numberOf a) (numberOf b) % 256)
    (long : (written.encode true context.byteOf).length = 4)
    (executed : (written.encode true context.byteOf).execute ram machine.registers =
      machine.registers.combine target other f) :
    Simulates context profile ram program (program.combine source target other g)
      machine.advanced.machine := by
  have fetched := simulates.fetch_eq loaded there
  rw [SourceProgram.combine, simulates.getElem?_values, simulates.getElem?_values]
  rw [Registers.combine] at executed
  cases first : machine.registers.get? target with
  | none =>
      simp only [first] at executed
      exact simulates.invalidRegister fetched executed
  | some old =>
      cases second : machine.registers.get? other with
      | none =>
          simp only [first, second] at executed
          exact simulates.invalidRegister fetched executed
      | some value =>
          simp only [first, second] at executed
          simp only [Option.map_some, ← same]
          exact simulates.arrive loaded runs fetched executed rfl runs
            (simulates.values_set target _) (List.append_nil _).symm
            (simulates.pc_behind loaded there (congrArg Nat.cast long))

/-- Going to a label keeps the two machines together: its byte is the boundary of the line behind
it. -/
theorem Simulates.branch {name : Text} (goes : written.label? = some name)
    (executed : (written.encode true context.byteOf).execute ram machine.registers =
      .next (machine.registers.goTo (context.byteOf name).toNat) .silent) :
    Simulates context profile ram program (program.goTo source (program.indexOf name))
      machine.advanced.machine := by
  have target := loaded.target (List.mem_of_getElem? there) goes
  exact simulates.arrive loaded runs (simulates.fetch_eq loaded there) executed rfl runs
    simulates.values (List.append_nil _).symm (congrArg Nat.cast target)

/-- Going on without a change keeps the two machines together, whatever has been reported. -/
theorem Simulates.goOn {report : Report} {moved : SourceMachine} {length : Int}
    (long : (written.encode true context.byteOf).length = length)
    (executed : (written.encode true context.byteOf).execute ram machine.registers =
      .next (machine.registers.goTo (machine.registers.pc + length)) report)
    (stands : moved.index = source.index) (still : moved.status = .running)
    (values : moved.values = source.values)
    (observations : moved.observations = source.observations ++ report.shown.map shownNumber) :
    Simulates context profile ram program (program.goTo moved (source.index + 1))
      machine.advanced.machine :=
  simulates.arrive loaded runs (simulates.fetch_eq loaded there) executed stands still
    (values.trans simulates.values) observations (simulates.pc_behind loaded there long)

/-- Executing an instruction keeps the two machines together, one case for each row of the table. -/
theorem Simulates.execute :
    Simulates context profile ram program (program.execute source written)
      machine.advanced.machine := by
  cases written with
  | exit => exact simulates.halt (simulates.fetch_eq loaded there) rfl
  | store register value => exact simulates.assign loaded runs there rfl rfl
  | load register value => exact simulates.assign loaded runs there rfl rfl
  | add target other value =>
      exact simulates.combine loaded runs there (fun a b => numberOf_add a b value) rfl rfl
  | sub target other value =>
      exact simulates.combine loaded runs there (fun a b => numberOf_sub a b value) rfl rfl
  | branchIf register value name =>
      have same : source.values[register.toNat]? = some (value.toNat : Int) ↔
          machine.registers.get? register = some value := by
        rw [simulates.getElem?_values, Option.map_eq_some_iff]
        simp only [numberOf_inj, exists_eq_right]
      rw [SourceProgram.execute]
      by_cases holds : machine.registers.get? register = some value
      · rw [if_pos (same.mpr holds)]
        exact simulates.branch loaded runs there rfl (if_pos holds)
      · rw [if_neg (mt same.mp holds)]
        exact simulates.goOn loaded runs there rfl (if_neg holds) rfl runs rfl
          (List.append_nil _).symm
  | jump name => exact simulates.branch loaded runs there rfl rfl
  | display register =>
      rw [SourceProgram.execute, simulates.getElem?_values]
      cases found : machine.registers.get? register with
      | none =>
          have executed : (Instruction.display register).execute ram machine.registers =
              .next (machine.registers.goTo (machine.registers.pc + 2)) (.noRegister register) := by
            simp only [Instruction.execute, found]
          exact simulates.goOn loaded runs there rfl executed rfl runs rfl (List.append_nil _).symm
      | some value =>
          have executed : (Instruction.display register).execute ram machine.registers =
              .next (machine.registers.goTo (machine.registers.pc + 2))
                (.observed register value) := by
            simp only [Instruction.execute, found]
          exact simulates.goOn loaded runs there rfl executed rfl runs rfl rfl

omit runs there

/-- While the machine runs its program counter is in the memory, so it can be named. -/
theorem Simulates.namesPc (runs : source.status = .running) : machine.NamesPc := by
  have within := (loaded.contains_iff source.index).mpr (simulates.inside runs)
  rw [← simulates.pc, ← simulates.ram_eq] at within
  exact Ram.names_of_contains within

/-- Every step keeps the two machines **together**, and it is made. -/
theorem Simulates.step :
    ∃ transition, machine.step = .ok transition ∧
      Simulates context profile ram program (program.step source) transition.machine := by
  have status := simulates.status
  rw [SourceMachine.statusIn] at status
  rw [SourceProgram.step]
  cases runs : source.status with
  | running =>
      rw [runs] at status
      refine ⟨machine.advanced, Machine.step_of_namesPc status (simulates.namesPc loaded runs), ?_⟩
      cases there : program.instructions[source.index]? with
      | some written => exact simulates.execute loaded runs there
      | none =>
          -- Nothing is written here, so there is room, and the zero behind the image halts.
          have behind := List.getElem?_eq_none_iff.mp there
          have room := (simulates.inside runs).resolve_left (Nat.not_lt.mpr behind)
          have fetched := loaded.fetch_end room
          rw [← loaded.boundary_end behind, ← simulates.pc] at fetched
          exact simulates.halt fetched rfl
  | _ =>
      rw [runs] at status
      have started : machine.status ≠ .idle := by rw [status]; exact nofun
      have stopped : machine.status ≠ .running := by rw [status]; exact nofun
      exact ⟨_, Machine.step_of_stopped started stopped, simulates⟩

/-- Any number of steps keeps the two machines together, by induction on the steps. -/
theorem Simulates.stepTimes (steps : Nat) :
    ∃ reached, machine.stepTimes steps = .ok reached ∧
      Simulates context profile ram program (program.stepTimes steps source) reached := by
  induction steps generalizing source machine with
  | zero => exact ⟨machine, rfl, simulates⟩
  | succ steps ih =>
      obtain ⟨transition, made, next⟩ := simulates.step loaded
      obtain ⟨reached, arrived, last⟩ := ih next
      refine ⟨reached, ?_, last⟩
      rw [Machine.stepTimes, made]
      exact arrived

end Step

/-! ### Whole runs -/

section Run

variable {profile : Profile} {maxLabels : Int} {text : Text} {instructions : List Written}
  {ram : Ram} {behind : Nat}

/-- A memory that holds the image of an assembled program with zeros behind it is loaded with
that program, under true sizes and with targets carried. -/
theorem Assembles.loaded (assembles : Assembles profile maxLabels text instructions context)
    (exact : profile.fixedSizing = false) (carries : profile.encodesTargets = true)
    (holds : ram.cells = context.program ++ List.replicate behind 0) :
    Loaded context profile ram
      (.ofLines (sourceLines text) instructions (context.program.length < ram.size)) := by
  have fits : context.program.length ≤ ram.size := by
    rw [Ram.size, holds, List.length_append]
    omega
  exact {
    fetch := fun there => carries ▸ assembles.fetch_boundary holds there
    fetch_end := fun room => Ram.fetch_behind profile holds (of_decide_eq_true room)
    boundary_succ := fun there => carries ▸ assembles.boundary_succ there
    boundary_end := fun behind => assembles.boundary_of_length_le behind
    target := by
      intro written inside name goes
      rw [assembles.byteOf_eq_boundary exact carries inside goes, SourceProgram.ofLines,
        map_statement_sourceLines]
    contains_iff := fun index => by
      rw [assembles.contains_boundary_iff fits, SourceProgram.ofLines, decide_eq_true_iff] }

/-- The machine that has just loaded a program simulates the source machine at its start. -/
theorem simulates_start (assembles : Assembles profile maxLabels text instructions context)
    (positive : 0 < machine.ram.size) :
    Simulates context machine.profile (machine.ram.load context.program)
      (.ofLines (sourceLines text) instructions (context.program.length < machine.ram.size))
      (.start machine.registers.count) (machine.load context.program) where
  values := by
    have zeros : (machine.load context.program).registers.values =
        List.replicate machine.registers.count 0 := rfl
    rw [zeros, List.map_replicate]
    rfl
  observations := rfl
  pc := by
    rw [assembles.boundary_eq]
    rfl
  status := rfl
  profile_eq := rfl
  ram_eq := machine.ram_load _
  inside := by
    intro _
    cases instructions with
    | nil =>
        have empty : context.program.length = 0 := assembles.length_program_eq
        exact .inr (decide_eq_true (empty ▸ positive))
    | cons first rest => exact .inl (Nat.succ_pos _)

/-- **An assembled program runs as it is written**, under true sizes and with targets carried. A
machine that loads an image which fits is, after every number of steps, in lockstep with the
source machine that executes the instructions of the program text. -/
theorem lockstep_stepTimes (machine : Machine) (text : Text) (maxLabels maxProgramSize : Int)
    {context : Context} (exact : machine.profile.fixedSizing = false)
    (carries : machine.profile.encodesTargets = true) (positive : 0 < machine.ram.size)
    (assembled : (assemble machine.profile text maxLabels maxProgramSize).result = .ok context)
    (fits : context.program.length ≤ machine.ram.size) :
    ∃ lines instructions, readSource text = .ok lines ∧
      List.Forall₂ (fun line => line.statement.Writes) (instructionLines lines) instructions ∧
      ∀ steps, ∃ reached, (machine.load context.program).stepTimes steps = .ok reached ∧
        Lockstep context
          ((SourceProgram.ofLines lines instructions
            (context.program.length < machine.ram.size)).stepTimes steps
            (.start machine.registers.count)) reached := by
  obtain ⟨instructions, assembles⟩ := exists_assembles assembled
  refine ⟨sourceLines text, instructions, assembles.readSource_eq, assembles.writes, ?_⟩
  intro steps
  have loaded := assembles.loaded exact carries (Ram.cells_load fits)
  rw [Ram.size_load] at loaded
  obtain ⟨reached, arrived, simulates⟩ :=
    (simulates_start assembles positive).stepTimes loaded steps
  exact ⟨reached, arrived, simulates.toLockstep⟩

/-- A loop that counts down runs as it is written, from its first pass to the end. -/
theorem exists_lockstep_countdown :
    let text := "STORE R1, 3\nLOOP:\nDPR R1\nSUB R1, R0, 1\nIF R1, 0, END\nJMP LOOP\nEND:".toList
    let machine := Machine.zeroed .resolved 20 256
    ∃ context, (assemble .resolved text 50 256).result = .ok context ∧
      ∃ lines instructions, readSource text = .ok lines ∧
        List.Forall₂ (fun line => line.statement.Writes) (instructionLines lines) instructions ∧
        ∀ steps, ∃ reached, (machine.load context.program).stepTimes steps = .ok reached ∧
          Lockstep context
            ((SourceProgram.ofLines lines instructions
              (context.program.length < machine.ram.size)).stepTimes steps
              (.start machine.registers.count)) reached := by
  intro text machine
  have worked : (assemble .resolved text 50 256).result.toOption.any
      (fun context => context.program.length ≤ 256) = true := by decide +kernel
  obtain ⟨context, assembled, fits⟩ := exists_context_of_any worked
  have size : machine.ram.size = 256 := List.length_replicate
  have positive : 0 < machine.ram.size := size ▸ Nat.succ_pos 255
  refine ⟨context, assembled, ?_⟩
  exact lockstep_stepTimes machine text 50 256 rfl rfl positive assembled
    (size ▸ of_decide_eq_true fits)

end Run

end ByteMachine
