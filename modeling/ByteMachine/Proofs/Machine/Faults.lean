import Mathlib.Logic.Basic
import ByteMachine.Proofs.Machine.Effect

/-!
# Faults

A fault leaves nothing half done. Either the machine `Refuses` what stands at its program counter,
and then nothing has changed, or it has `Executed` an instruction in full, and the program counter
has left the memory.

A machine refuses for a reason that can be seen before anything is executed: in the bytes at the
program counter, in the number of bytes that there are, and in the number of registers. A jump is
read up to its target even where the target is no operand, and that is why it has a `reach` beside
its length.

A program counter that was set from outside may be so far away that it cannot be named in the
message of a fault. A step from there is not made at all: it fails, and the machine still runs as it
did.

## Main results

* `Machine.advance_eq_ok`, `Machine.advance_eq_error`: when a step fails.
* `Machine.Refuses.becomes`: what is refused changes nothing.
* `Machine.refuses_or_executes`: what is not refused is executed.
* `Machine.fault_atomic`: the two kinds of faults, and the step that is not made.
-/

namespace ByteMachine

/-- The number of bytes that an instruction **reads**: those that it has in an image, and for a jump
the byte of its target in any case. -/
def Mnemonic.reach (profile : Profile) : Mnemonic → Nat
  | .jump => 2
  | mnemonic => mnemonic.length profile

/-- An instruction reads what it has in an image, unless it is a jump whose target was left out of
the image. -/
theorem Mnemonic.reach_eq (profile : Profile) (mnemonic : Mnemonic) :
    mnemonic.reach profile = mnemonic.length profile ∨
      mnemonic = .jump ∧ profile.encodesTargets = false := by
  cases mnemonic with
  | jump =>
      cases carries : profile.encodesTargets with
      | false => exact .inr ⟨rfl, rfl⟩
      | true =>
          refine .inl ?_
          rw [length_eq, encodedKinds, carries]
          rfl
  | _ => exact .inl rfl

/-- An instruction reads at least what it has in an image, under all profiles. -/
theorem Mnemonic.length_le_reach (profile : Profile) (mnemonic : Mnemonic) :
    mnemonic.length profile ≤ mnemonic.reach profile := by
  rcases mnemonic.reach_eq profile with same | ⟨rfl, short⟩
  · exact Nat.le_of_eq same.symm
  · rw [length_eq, encodedKinds, short]
    exact Nat.le_succ 1

namespace Machine

/-- The machine meets an instruction: all its bytes stand at the program counter. -/
def Meets (machine : Machine) (instruction : Instruction) : Prop :=
  instruction.Fits machine.profile.encodesTargets ∧
    machine.ram.HoldsAt machine.registers.pc instruction.bytes

/-- What a machine **refuses** to execute, with the kind of the fault. There is one case for each
way in which the bytes at the program counter are no instruction. -/
inductive Refuses (machine : Machine) : FaultKind → Prop
  | outside (names : machine.NamesPc)
      (outside : ¬ machine.ram.contains machine.registers.pc = true) :
      machine.Refuses .pcOutOfBounds
  | cutOff {mnemonic : Mnemonic}
      (holds : machine.ram.HoldsAt machine.registers.pc [mnemonic.opcode])
      (behind : machine.ram.size < machine.registers.pc + mnemonic.reach machine.profile) :
      machine.Refuses .pcOutOfBounds
  | unknown {opcode : UInt8} (holds : machine.ram.HoldsAt machine.registers.pc [opcode])
      (unknown : ∀ mnemonic : Mnemonic, mnemonic.opcode ≠ opcode) :
      machine.Refuses .unknownInstruction
  | register {instruction : Instruction} {register : UInt8} (meets : machine.Meets instruction)
      (needed : register ∈ instruction.registersNeeded)
      (missing : machine.registers.count ≤ register.toNat) : machine.Refuses .invalidRegister

/-- A step that ends in a **fault** of the instruction at the program counter before it. The fault
is of the given kind and carries that address. -/
structure Faults (machine : Machine) (kind : FaultKind) (transition : Transition) : Prop where
  reason : transition.reason? = some .fault
  state : transition.machine.state = .faulted
  fault : ∃ cause, transition.machine.fault = some ⟨cause, machine.registers.pc⟩ ∧
    cause.kind = kind

/-- A step that leaves a machine **untouched**: all of its registers, the program counter and the
count of steps among them, its memory, and what it has shown. -/
structure Untouched (machine : Machine) (transition : Transition) : Prop where
  registers : transition.machine.registers = machine.registers
  ram : transition.machine.ram = machine.ram
  observations : transition.machine.observations = machine.observations
  printed : transition.effects.printed = []

/-- A step that has **executed** an instruction in full, with its effect on the registers and what
it shows. -/
structure Executed (machine : Machine) (instruction : Instruction) (transition : Transition) :
    Prop where
  numbers : transition.machine.registers.numbers =
    instruction.numbersAfter machine.registers.numbers
  pc : transition.machine.registers.pc = instruction.pcAfter machine.ram machine.registers
  steps : transition.machine.registers.steps = machine.registers.steps + 1
  ram : transition.machine.ram = machine.ram
  observations : transition.machine.observations =
    machine.observations ++ instruction.shownFrom machine.registers
  printed : transition.effects.printed = linesOf (instruction.shownFrom machine.registers)

variable {machine : Machine} {kind : FaultKind} {instruction : Instruction}

/-! ### One step -/

/-- A step that adds nothing and keeps the registers leaves the machine untouched, its status
apart. -/
theorem Becomes.untouched {status : Status}
    (becomes : machine.Becomes machine.registers [] status machine.advanced.machine) :
    machine.Untouched machine.advanced where
  registers := becomes.registers_eq
  ram := becomes.ram_eq
  observations := becomes.observations_eq.trans (List.append_nil _)
  printed := printed_advanced becomes

/-- A step that leaves a faulted machine is one that faults, at the program counter before it. -/
theorem Becomes.faults {registers : Registers} {shown : List (UInt8 × UInt8)} {cause : FaultCause}
    (runs : machine.status = .running)
    (becomes : machine.Becomes registers shown (.faulted ⟨cause, machine.registers.pc⟩)
      machine.advanced.machine) : machine.Faults cause.kind machine.advanced where
  reason := by
    rw [reason?_advanced runs, stopReason?_eq, becomes.status_eq]
    rfl
  state := (fault_advanced_eq runs becomes.status_eq).1
  fault := ⟨cause, (fault_advanced_eq runs becomes.status_eq).2, rfl⟩

/-- A step that leaves what an instruction does has executed it, whatever the status has become. -/
theorem Becomes.executed {after : Registers} {report : Report} {status : Status}
    (does : instruction.Does machine.ram machine.registers after report)
    (becomes : machine.Becomes (countStep after) report.shown status machine.advanced.machine) :
    machine.Executed instruction machine.advanced where
  numbers := by
    rw [becomes.registers_eq, ← does.numbers]
    rfl
  pc := by
    rw [becomes.registers_eq, ← does.pc]
    rfl
  steps := by
    rw [becomes.registers_eq, ← does.steps]
    rfl
  ram := becomes.ram_eq
  observations := by rw [becomes.observations_eq, does.shown]
  printed := by rw [printed_advanced becomes, does.shown]

/-- A machine fetches the instruction that it meets, since all bytes of it can be read. -/
theorem Meets.fetch_eq (meets : machine.Meets instruction) :
    machine.ram.fetch machine.profile machine.registers.pc = .ok instruction :=
  Ram.fetch_of_holdsAt meets.1 meets.2

/-- The program counter of a machine that meets an instruction is named, for it lies inside the
memory. -/
theorem Meets.namesPc (meets : machine.Meets instruction) : machine.NamesPc :=
  Ram.names_of_contains (Ram.HoldsAt.contains meets.2)

/-- An instruction that is met stands inside the memory, from its first byte to its last. -/
theorem Meets.le_size (meets : machine.Meets instruction) :
    0 ≤ machine.registers.pc ∧ machine.registers.pc + instruction.length ≤ machine.ram.size := by
  have inside := meets.2.le_size
  rw [Instruction.length_bytes] at inside
  exact inside

/-- An address that the memory names causes a fault where nothing can be fetched from it. The fault
can be written out. -/
theorem exists_ofFetch_refuse (pc : Int) {address : Int} (names : machine.ram.Names address) :
    ∃ error, FaultCause.ofFetch pc (.access (machine.ram.refuse address)) =
      .ok (.cutOff pc error) := by
  rw [Ram.refuse_of_names names]
  exact ⟨_, rfl⟩

/-- From a program counter that can be named every failed fetch causes a fault, whatever it is that
failed. -/
theorem NamesPc.exists_ofFetch (names : machine.NamesPc) {error : FetchError}
    (missed : machine.ram.fetch machine.profile machine.registers.pc = .error error) :
    ∃ cause, FaultCause.ofFetch machine.registers.pc error = .ok cause := by
  rcases machine.ram.fetch_cases machine.profile machine.registers.pc with
    outside | ⟨opcode, holds, unknown⟩ | ⟨mnemonic, holds, behind⟩ | ⟨instruction, meets⟩
  · rw [Ram.fetch_of_not_contains outside] at missed
    cases missed
    obtain ⟨error, causes⟩ := exists_ofFetch_refuse machine.registers.pc names
    exact ⟨_, causes⟩
  · rw [Ram.fetch_of_unknown holds unknown] at missed
    cases missed
    exact ⟨_, rfl⟩
  · rw [Ram.fetch_of_cutOff holds behind] at missed
    cases missed
    obtain ⟨error, causes⟩ := exists_ofFetch_refuse machine.registers.pc machine.ram.names_size
    exact ⟨_, causes⟩
  · rw [Meets.fetch_eq meets] at missed
    cases missed

/-- A jump whose target is not there looks for it behind itself, at an address that has a
name. -/
theorem Meets.exists_named_of_noTarget (meets : machine.Meets instruction) {error : AccessError}
    (executed : instruction.execute machine.ram machine.registers = .noTarget error) :
    ∃ named, error.named = .ok named := by
  have outcome := Instruction.outcome_execute machine.ram machine.registers instruction
  rw [executed] at outcome
  cases outcome with
  | astray jumps outside =>
      subst jumps
      have inside := meets.le_size
      rw [show (Instruction.jump none).length = 1 from rfl] at inside
      have names : machine.ram.Names (machine.registers.pc + 1) := .inl (by omega)
      rw [Ram.refuse_of_names names]
      exact ⟨_, rfl⟩

/-- A step from a program counter that can be named is made, to an end or to a fault. -/
theorem exists_advance (names : machine.NamesPc) :
    ∃ transition, machine.advance = .ok transition := by
  cases fetched : machine.ram.fetch machine.profile machine.registers.pc with
  | error error =>
      obtain ⟨cause, causes⟩ := names.exists_ofFetch fetched
      simp only [advance, fetched, causes]
      exact ⟨_, rfl⟩
  | ok instruction =>
      simp only [advance, fetched, ram_record, registers_record]
      split
      · exact ⟨_, rfl⟩
      · exact ⟨_, rfl⟩
      next error executed =>
        obtain ⟨named, names⟩ :=
          Meets.exists_named_of_noTarget (Ram.fetch_eq_ok_iff.mp fetched) executed
        rw [names]
        exact ⟨_, rfl⟩
      · split
        · exact ⟨_, rfl⟩
        · exact ⟨_, rfl⟩

/-- A step from a program counter that can be **named** is made, and leaves what `advanced` says.
All that can fail in a step is the message of a fault. -/
theorem advance_eq_ok (names : machine.NamesPc) : machine.advance = .ok machine.advanced := by
  obtain ⟨transition, made⟩ := exists_advance names
  rw [advanced, made]
  rfl

/-- A step fails if the program counter has no name. It is then outside the memory, and the error
about it cannot be written. -/
theorem advance_eq_error (unnamed : ¬ machine.NamesPc) : machine.advance = .error {} := by
  have outside := mt Ram.names_of_contains unnamed
  simp only [advance, Ram.fetch_of_not_contains outside, Ram.refuse_of_not_names unnamed]
  rfl

theorem advanced_of_not_namesPc (unnamed : ¬ machine.NamesPc) :
    machine.advanced = ⟨machine, none, {}⟩ :=
  advanced_of_error (advance_eq_error unnamed)

/-- What is **refused** changes the status alone, to a fault of its kind at the program counter.
There is one case for each way to be refused. -/
theorem Refuses.becomes (refuses : machine.Refuses kind) :
    ∃ cause, cause.kind = kind ∧ machine.Becomes machine.registers []
      (.faulted ⟨cause, machine.registers.pc⟩) machine.advanced.machine := by
  cases refuses with
  | outside names outside =>
      obtain ⟨error, causes⟩ := exists_ofFetch_refuse machine.registers.pc names
      exact ⟨_, rfl, advance_of_fetch_error (Ram.fetch_of_not_contains outside) causes⟩
  | unknown holds unknown =>
      exact ⟨_, rfl, advance_of_fetch_error (Ram.fetch_of_unknown holds unknown) rfl⟩
  | @cutOff mnemonic holds behind =>
      rcases mnemonic.reach_eq machine.profile with same | ⟨rfl, short⟩
      · rw [same] at behind
        obtain ⟨error, causes⟩ :=
          exists_ofFetch_refuse machine.registers.pc machine.ram.names_size
        exact ⟨_, rfl, advance_of_fetch_error (Ram.fetch_of_cutOff holds behind) causes⟩
      · -- The jump is there, and its target is looked for behind it when it is executed.
        have meets : machine.Meets (.jump none) := ⟨short.symm, holds⟩
        have outside : ¬ machine.ram.contains (machine.registers.pc + 1) = true := by
          rw [Ram.contains_iff]
          rw [Mnemonic.reach] at behind
          omega
        have executed : (Instruction.jump none).execute machine.ram machine.registers =
            .noTarget (machine.ram.refuse (machine.registers.pc + 1)) := by
          rw [Instruction.execute, Ram.read_of_not_contains outside]
        obtain ⟨named, names⟩ := meets.exists_named_of_noTarget executed
        exact ⟨_, rfl, advance_of_noTarget meets.fetch_eq executed names⟩
  | @register instruction register meets needed missing =>
      have outcome := Instruction.outcome_execute machine.ram machine.registers instruction
      generalize executed : instruction.execute machine.ram machine.registers = execution at outcome
      cases outcome with
      | halts exits =>
          subst exits
          cases needed
      | astray jumps _ =>
          subst jumps
          cases needed
      | refused _ => exact ⟨_, rfl, advance_of_invalidRegister meets.fetch_eq executed⟩
      | done _ exist _ _ => exact absurd (exist register needed) (Nat.not_lt.mpr missing)

/-- What is **not refused** is executed, unless the step fails: it halts, or it does what it should
and leaves the program counter in the memory or outside of it. -/
theorem refuses_or_executes (machine : Machine) :
    (∃ kind, machine.Refuses kind) ∨
      (∃ instruction, machine.Meets instruction ∧
        (machine.Becomes (countStep machine.registers) [] .halted machine.advanced.machine ∨
          ∃ after report, instruction.Does machine.ram machine.registers after report ∧
            machine.Becomes (countStep after) report.shown
              (if machine.ram.contains after.pc then machine.status
                else .faulted ⟨.outOfBounds after.pc, machine.registers.pc⟩)
              machine.advanced.machine)) ∨
      ¬ machine.NamesPc := by
  rcases machine.ram.fetch_cases machine.profile machine.registers.pc with
    outside | ⟨opcode, holds, unknown⟩ | ⟨mnemonic, holds, behind⟩ | ⟨instruction, meets⟩
  · by_cases names : machine.NamesPc
    · exact .inl ⟨_, .outside names outside⟩
    · exact .inr (.inr names)
  · exact .inl ⟨_, .unknown holds unknown⟩
  · have := mnemonic.length_le_reach machine.profile
    exact .inl ⟨_, .cutOff holds (by omega)⟩
  · have fetched := Meets.fetch_eq meets
    have outcome := Instruction.outcome_execute machine.ram machine.registers instruction
    generalize executed : instruction.execute machine.ram machine.registers = execution at outcome
    cases outcome with
    | halts _ => exact .inr (.inl ⟨instruction, meets, .inl (advance_of_halt fetched executed)⟩)
    | refused first =>
        have missing := List.find?_some first
        rw [decide_eq_true_iff] at missing
        exact .inl ⟨_, .register meets (List.mem_of_find?_eq_some first) missing⟩
    | astray jumps outside =>
        subst jumps
        have holds : machine.ram.HoldsAt machine.registers.pc [Mnemonic.jump.opcode] := meets.2
        have inside := Ram.contains_iff.mp holds.contains
        rw [Ram.contains_iff] at outside
        refine .inl ⟨_, .cutOff holds ?_⟩
        rw [Mnemonic.reach]
        omega
    | done _ _ _ does =>
        exact .inr (.inl
          ⟨instruction, meets, .inr ⟨_, _, does, advance_of_next fetched executed⟩⟩)

/-! ### Faults -/

/-- A step has only one kind of fault, so the kinds exclude each other. -/
theorem Faults.kind_eq {other : FaultKind} {transition : Transition}
    (faults : machine.Faults kind transition) (again : machine.Faults other transition) :
    kind = other := by
  obtain ⟨-, -, cause, fault, rfl⟩ := faults
  obtain ⟨-, -, other, kept, rfl⟩ := again
  rw [fault] at kept
  cases kept
  rfl

/-- A step that has executed an instruction has counted, so it does not leave the machine
untouched. -/
theorem Executed.not_untouched {transition : Transition}
    (executed : machine.Executed instruction transition) : ¬ machine.Untouched transition := by
  intro untouched
  have steps := executed.steps
  rw [untouched.registers] at steps
  omega

/-- What is refused is what leads to a fault with nothing changed. The other faults come of an
instruction that was executed. -/
theorem refuses_iff (runs : machine.status = .running) :
    machine.Refuses kind ↔
      machine.Faults kind machine.advanced ∧ machine.Untouched machine.advanced := by
  constructor
  · intro refuses
    obtain ⟨cause, rfl, becomes⟩ := refuses.becomes
    exact ⟨becomes.faults runs, becomes.untouched⟩
  · rintro ⟨faults, untouched⟩
    rcases machine.refuses_or_executes with
      ⟨other, refuses⟩ | ⟨instruction, -, halted | ⟨after, report, does, becomes⟩⟩ | unnamed
    · obtain ⟨cause, rfl, becomes⟩ := refuses.becomes
      exact (becomes.faults runs).kind_eq faults ▸ refuses
    · have state := faults.state
      rw [← state_status, halted.status_eq] at state
      cases state
    · exact absurd untouched (becomes.executed does).not_untouched
    · have reason := faults.reason
      rw [advanced_of_not_namesPc unnamed] at reason
      cases reason

/-- An instruction that needs a register is none of those that pass over missing ones, `IF` and
`DPR`. -/
theorem Meets.registersNeeded_eq_nil (meets : machine.Meets instruction) {mnemonic : Mnemonic}
    (holds : machine.ram.HoldsAt machine.registers.pc [mnemonic.opcode])
    (passes : mnemonic ∈ [Mnemonic.branchIf, .display]) : instruction.registersNeeded = [] := by
  have stands : machine.ram.HoldsAt machine.registers.pc [instruction.mnemonic.opcode] :=
    Ram.HoldsAt.left meets.2
  have same := Mnemonic.opcode_inj (stands.unique holds)
  rw [← same] at passes
  cases instruction with
  | branchIf _ _ _ => rfl
  | display _ => rfl
  | _ => simp [Instruction.mnemonic] at passes

/-- A step that ends in a fault has refused what it met, or it has executed an instruction in
full and left the memory. -/
theorem exists_faults (runs : machine.status = .running)
    (faulted : machine.advanced.reason? = some .fault) :
    ∃ kind, machine.Faults kind machine.advanced ∧
      (machine.Refuses kind ∨ ∃ instruction, machine.Meets instruction ∧
        machine.Executed instruction machine.advanced ∧
        ¬ machine.ram.contains machine.advanced.machine.registers.pc = true ∧
        kind = .pcOutOfBounds) := by
  rcases machine.refuses_or_executes with
    ⟨kind, refuses⟩ | ⟨instruction, meets, halted | ⟨after, report, does, becomes⟩⟩ | unnamed
  · exact ⟨kind, ((refuses_iff runs).mp refuses).1, .inl refuses⟩
  · rw [reason?_advanced runs, stopReason?_eq, halted.status_eq] at faulted
    cases faulted
  · by_cases inside : machine.ram.contains after.pc = true
    · rw [reason?_advanced runs, stopReason?_eq, becomes.status_eq, if_pos inside, runs] at faulted
      cases faulted
    · have executed := becomes.executed does
      rw [if_neg inside] at becomes
      refine ⟨_, becomes.faults runs, .inr ⟨instruction, meets, executed, ?_, rfl⟩⟩
      rw [becomes.registers_eq]
      exact inside
  · rw [advanced_of_not_namesPc unnamed] at faulted
    cases faulted

/-- A machine that runs makes its step if the program counter can be named. -/
theorem step_of_namesPc (runs : machine.status = .running) (names : machine.NamesPc) :
    machine.step = .ok machine.advanced := by
  rw [step_of_running runs, advance_eq_ok names]
  rfl

/-- A machine that runs fails to make its step if the program counter has no name. No fault is
recorded. -/
theorem step_of_not_namesPc (runs : machine.status = .running) (unnamed : ¬ machine.NamesPc) :
    machine.step = .error (.unnamed {}) := by
  rw [step_of_running runs, advance_eq_error unnamed]
  rfl

/-- **A fault leaves nothing half done.** A step of a machine that runs is made, whatever the memory
and the registers, if its program counter can be named: no further away than the memory is long, or
not too long to be written. It faults and leaves everything untouched exactly if the machine refuses
what it meets, with the kind of the refusal. In any other fault an instruction was executed in full,
and has left the memory. A branch that compares and a display never fault for the register that they
name. From a program counter that cannot be named no step is made, and the failure says that an
integer is too long. -/
theorem fault_atomic (machine : Machine) (runs : machine.status = .running) :
    (¬ machine.NamesPc → machine.step = .error (.unnamed {})) ∧
    (machine.NamesPc → ∃ transition, machine.step = .ok transition ∧
      (∀ kind, machine.Refuses kind ↔
        machine.Faults kind transition ∧ machine.Untouched transition) ∧
      (transition.reason? = some .fault → ∃ kind, machine.Faults kind transition ∧
        Xor (machine.Untouched transition)
          (∃ instruction, machine.Meets instruction ∧ machine.Executed instruction transition ∧
            ¬ machine.ram.contains transition.machine.registers.pc = true ∧
            kind = .pcOutOfBounds)) ∧
      ∀ mnemonic ∈ [Mnemonic.branchIf, .display],
        machine.ram.HoldsAt machine.registers.pc [mnemonic.opcode] →
          ¬ machine.Faults .invalidRegister transition) := by
  refine ⟨step_of_not_namesPc runs, fun names => ⟨machine.advanced, step_of_namesPc runs names,
    fun kind => refuses_iff runs, ?_, ?_⟩⟩
  · intro faulted
    obtain ⟨kind, faults, refuses | executed⟩ := exists_faults runs faulted
    · have untouched := ((refuses_iff runs).mp refuses).2
      exact ⟨kind, faults, .inl ⟨untouched, fun ⟨_, _, executed, _⟩ =>
        executed.not_untouched untouched⟩⟩
    · have ⟨_, _, full, _⟩ := executed
      exact ⟨kind, faults, .inr ⟨executed, full.not_untouched⟩⟩
  · intro mnemonic passes holds faults
    obtain ⟨kind, same, refuses | ⟨_, _, _, _, rfl⟩⟩ := exists_faults runs faults.reason
    · obtain rfl := same.kind_eq faults
      cases refuses with
      | register meets needed _ =>
          rw [meets.registersNeeded_eq_nil holds passes] at needed
          cases needed
    · cases same.kind_eq faults

/-- A jump in the last byte, whose target is not there, leaves the machine untouched but for the
fault. -/
theorem exists_refused_jump :
    let machine : Machine :=
      { Machine.zeroed .classic 20 1 with ram := ⟨[Mnemonic.jump.opcode]⟩, state := .running }
    ∃ transition, machine.step = .ok transition ∧ machine.Faults .pcOutOfBounds transition ∧
      machine.Untouched transition := by
  intro machine
  have holds : machine.ram.HoldsAt machine.registers.pc [Mnemonic.jump.opcode] := ⟨[], [], rfl, rfl⟩
  obtain ⟨-, made⟩ := fault_atomic machine rfl
  obtain ⟨transition, stepped, refused, -⟩ := made (Ram.names_of_contains holds.contains)
  exact ⟨transition, stepped, (refused _).mp (.cutOff holds (by decide))⟩

/-- Not every machine that runs makes a step. Here the program counter was set from outside, to a
number with too many digits. -/
theorem not_forall_exists_step :
    ¬ ∀ machine : Machine, machine.status = .running →
      ∃ transition, machine.step = .ok transition := by
  intro all
  let loaded := (Machine.zeroed .classic 20 4).load [Mnemonic.exit.opcode]
  let machine : Machine := { loaded with registers := loaded.registers.goTo Text.firstLong }
  obtain ⟨transition, made⟩ := all machine rfl
  have unnamed : ¬ machine.NamesPc := Ram.not_names_firstLong (by decide)
  rw [step_of_not_namesPc rfl unnamed] at made
  cases made

end Machine

end ByteMachine
