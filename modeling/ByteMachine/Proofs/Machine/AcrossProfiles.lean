import ByteMachine.Proofs.Machine.Place

/-!
# One run under two profiles

The profile of a machine tells which bytes of the memory are targets of branches. An instruction
without a label is fetched the same under all profiles. So is a jump for all that it does: its
target is the byte behind the opcode, whether it is fetched with the instruction or looked up when
that is executed. Only the branch that compares has another length and another effect. So two
machines that differ in nothing but their profiles go the same way until they come to one.

Where a jump is the last byte of the memory both machines fault at it, but in different steps of
their work, and that shows in the message of the fault and nowhere else.

## Main results

* `Ram.fetch_eq_of_plain`: fetching an instruction without a label.
* `becomes_of_jump`: what a jump does under any profile.
* `Agree.next`, `Agree.iterate_next`: one step and any number of steps.
* `agree_until_branchIf`: two runs up to the first branch that compares.
-/

namespace ByteMachine

/-! ### Instructions without a label -/

/-- An instruction without a label has one length under all profiles: only a target is carried or
left out. -/
theorem Mnemonic.length_eq_of_plain {mnemonic : Mnemonic}
    (plain : mnemonic.definition.isBranch = false) (first second : Profile) :
    mnemonic.length first = mnemonic.length second := by
  cases mnemonic with
  | branchIf => cases plain
  | jump => cases plain
  | _ => rfl

/-- An instruction without a label fits every encoding, whether the encoding carries targets or
not. -/
theorem Instruction.fits_of_plain {instruction : Instruction}
    (plain : instruction.mnemonic.definition.isBranch = false) (targets : Bool) :
    instruction.Fits targets := by
  cases instruction with
  | branchIf _ _ _ => cases plain
  | jump _ => cases plain
  | _ => trivial

/-- Where no instruction with a label stands, all profiles fetch the same from the memory, faults
included. -/
theorem Ram.fetch_eq_of_plain {ram : Ram} {pc : Int}
    (plain : ∀ mnemonic : Mnemonic, ram.HoldsAt pc [mnemonic.opcode] →
      mnemonic.definition.isBranch = false) (first second : Profile) :
    ram.fetch second pc = ram.fetch first pc := by
  rcases ram.fetch_cases first pc with
    outside | ⟨opcode, holds, unknown⟩ | ⟨mnemonic, holds, behind⟩ | ⟨instruction, fit, holds⟩
  · rw [fetch_of_not_contains outside, fetch_of_not_contains outside]
  · rw [fetch_of_unknown holds unknown, fetch_of_unknown holds unknown]
  · have length := Mnemonic.length_eq_of_plain (plain mnemonic holds) first second
    rw [fetch_of_cutOff holds behind, fetch_of_cutOff holds (length ▸ behind)]
  · have fits := Instruction.fits_of_plain (plain instruction.mnemonic (HoldsAt.left holds))
    rw [fetch_of_holdsAt fit holds, fetch_of_holdsAt (fits _) holds]

namespace Machine

/-! ### Jumps -/

/-- What a jump does whose target stands behind its opcode, under any profile. The target is read at
run time, so it need not be carried. -/
theorem becomes_of_jump {machine : Machine} {target : UInt8}
    (holds : machine.ram.HoldsAt machine.registers.pc [Mnemonic.jump.opcode, target]) :
    machine.Becomes (countStep (machine.registers.goTo target.toNat)) []
      (if machine.ram.contains target.toNat then machine.status
        else .faulted ⟨.outOfBounds target.toNat, machine.registers.pc⟩)
      machine.advanced.machine := by
  cases carries : machine.profile.encodesTargets with
  | true =>
      have meets : machine.Meets (.jump (some target)) := ⟨carries.symm, holds⟩
      exact advance_of_next meets.fetch_eq rfl
  | false =>
      have parts : machine.ram.HoldsAt machine.registers.pc ([Mnemonic.jump.opcode] ++ [target]) :=
        holds
      have meets : machine.Meets (.jump none) := ⟨carries.symm, parts.left⟩
      have behind : machine.ram.HoldsAt (machine.registers.pc + 1) [target] := parts.right
      have executed : (Instruction.jump none).execute machine.ram machine.registers =
          .next (machine.registers.goTo target.toNat) .silent := by
        rw [Instruction.execute, behind.read_eq]
      exact advance_of_next meets.fetch_eq executed

/-- A jump without anything behind its opcode is refused, under any profile. Only the cause of the
fault differs from one profile to the other. -/
theorem refuses_of_jump {machine : Machine}
    (holds : machine.ram.HoldsAt machine.registers.pc [Mnemonic.jump.opcode])
    (ends : machine.registers.pc + 1 = machine.ram.size) : machine.Refuses .pcOutOfBounds := by
  refine .cutOff holds ?_
  rw [Mnemonic.reach]
  omega

end Machine

/-! ### Machines that agree -/

/-- Statuses **agree** if they are the same, or those of two faults of one kind, met by a jump in
the last byte of the memory. -/
inductive Status.Agree (ram : Ram) : Status → Status → Prop
  | same (status : Status) : Agree ram status status
  | lastJump {cause cause' : FaultCause} {pc : Int} (kind : cause.kind = cause'.kind)
      (holds : ram.HoldsAt pc [Mnemonic.jump.opcode]) (ends : pc + 1 = ram.size) :
      Agree ram (.faulted ⟨cause, pc⟩) (.faulted ⟨cause', pc⟩)

namespace Status.Agree

variable {ram : Ram} {status other : Status}

theorem name_eq (agree : status.Agree ram other) : status.name = other.name := by
  cases agree <;> rfl

theorem stopReason?_eq (agree : status.Agree ram other) :
    status.stopReason? = other.stopReason? := by
  cases agree <;> rfl

/-- The faults of statuses that agree have one kind and one address. Their messages may differ. -/
theorem fault?_eq (agree : status.Agree ram other) :
    status.fault?.map (fun fault => (fault.cause.kind, fault.pc)) =
      other.fault?.map fun fault => (fault.cause.kind, fault.pc) := by
  cases agree with
  | same => rfl
  | lastJump kind _ _ => exact congrArg (fun kind => some (kind, _)) kind

/-- Statuses that agree are the same while no jump is the last byte of the memory, for only there a
fault depends on the profile. -/
theorem eq_of_not_holdsAt (agree : status.Agree ram other)
    (clear : ¬ ram.HoldsAt (ram.size - 1) [Mnemonic.jump.opcode]) : status = other := by
  cases agree with
  | same => rfl
  | lastJump _ holds ends =>
      rw [← ends, Int.add_sub_cancel] at clear
      exact absurd holds clear

/-- Of statuses that agree both are the same, or both are those of faults. So a status without a
fault is reached by both or by none. -/
theorem eq_iff (agree : status.Agree ram other) {plain : Status} (sane : plain.fault? = none) :
    status = plain ↔ other = plain := by
  cases agree with
  | same => rfl
  | lastJump =>
      refine iff_of_false ?_ ?_
      · rintro rfl
        cases sane
      · rintro rfl
        cases sane

end Status.Agree

namespace Machine

/-- Two machines **agree** if they have the same memory and the same registers, if they have shown
the same, and if their statuses agree. -/
structure Agree (first second : Machine) : Prop where
  ram_eq : first.ram = second.ram
  registers_eq : first.registers = second.registers
  observations_eq : first.observations = second.observations
  status : first.status.Agree first.ram second.status

/-- A machine **comes to a comparison** if it runs, and at its program counter stands the opcode of
the branch that compares. -/
def Compares (machine : Machine) : Prop :=
  machine.status = .running ∧
    machine.ram.HoldsAt machine.registers.pc [Mnemonic.branchIf.opcode]

variable {first second : Machine}

namespace Agree

/-- Machines that agree and run are in the same place: they differ in their profiles only. -/
theorem samePlace (agree : Agree first second) (runs : first.status = .running) :
    SamePlace first second where
  ram_eq := agree.ram_eq
  values_eq := congrArg Registers.values agree.registers_eq
  pc_eq := congrArg Registers.pc agree.registers_eq
  status_eq := runs.trans ((agree.status.eq_iff rfl).mp runs).symm

/-- What one step makes of two machines that agree and run, where no branch compares. The cases are
those of the instruction that is met. -/
theorem exists_becomes (agree : Agree first second) (runs : first.status = .running)
    (goesOn : ¬ first.Compares) :
    ∃ after shown status status', first.Becomes after shown status first.advanced.machine ∧
      second.Becomes after shown status' second.advanced.machine ∧
      status.Agree first.ram status' := by
  have ram := agree.ram_eq
  have registers := agree.registers_eq
  have same := agree.samePlace runs
  by_cases jumps : first.ram.HoldsAt first.registers.pc [Mnemonic.jump.opcode]
  · rcases jumps.ends_or_next with ends | ⟨target, holds⟩
    · -- One machine misses the target when it fetches, the other when it executes.
      obtain ⟨cause, kind, becomes⟩ := (refuses_of_jump jumps ends).becomes
      have refuses : second.Refuses .pcOutOfBounds :=
        refuses_of_jump (ram ▸ registers ▸ jumps) (ram ▸ registers ▸ ends)
      obtain ⟨cause', kind', becomes'⟩ := refuses.becomes
      rw [← registers] at becomes'
      exact ⟨_, _, _, _, becomes, becomes', .lastJump (kind.trans kind'.symm) jumps ends⟩
    · have becomes := becomes_of_jump holds
      have becomes' := @becomes_of_jump second target (ram ▸ registers ▸ holds)
      rw [← ram, ← registers, ← same.status_eq] at becomes'
      exact ⟨_, _, _, _, becomes, becomes', .same _⟩
  · have plain (mnemonic : Mnemonic)
        (holds : first.ram.HoldsAt first.registers.pc [mnemonic.opcode]) :
        mnemonic.definition.isBranch = false := by
      cases mnemonic with
      | branchIf => exact absurd ⟨runs, holds⟩ goesOn
      | jump => exact absurd holds jumps
      | _ => rfl
    have fetches : second.ram.fetch second.profile second.registers.pc =
        first.ram.fetch first.profile first.registers.pc := by
      rw [← ram, ← registers]
      exact Ram.fetch_eq_of_plain plain _ _
    obtain ⟨after, after', shown, status, alike⟩ := same.advance fetches
    have steps : after.steps = after'.steps := by
      obtain ⟨made, one, other⟩ := alike.steps_eq
      rw [one, other, registers]
    have left : after = after' := by
      rw [Registers.eq_withSteps alike.values_eq alike.pc_eq, ← steps]
    exact ⟨after, shown, status, status, alike.becomes, left ▸ alike.becomes', .same _⟩

/-- **One step** of machines that agree, unless it comes to a comparison: they agree behind it, and
it answers and prints the same. -/
theorem next (agree : Agree first second) (goesOn : ¬ first.Compares) :
    Agree first.next second.next ∧
      (first.perform .step).answer = (second.perform .step).answer ∧
      (first.perform .step).effects.printed = (second.perform .step).effects.printed := by
  by_cases runs : first.status = .running
  · have runs' := (agree.status.eq_iff rfl).mp runs
    obtain ⟨after, shown, status, status', becomes, becomes', statuses⟩ :=
      agree.exists_becomes runs goesOn
    have behind : Agree first.next second.next := by
      rw [next_of_running runs, next_of_running runs']
      constructor
      · rw [becomes.ram_eq, becomes'.ram_eq, agree.ram_eq]
      · rw [becomes.registers_eq, becomes'.registers_eq]
      · rw [becomes.observations_eq, becomes'.observations_eq, agree.observations_eq]
      · rw [becomes.ram_eq, becomes.status_eq, becomes'.status_eq]
        exact statuses
    refine ⟨behind, ?_⟩
    have named := namesPc_congr agree.ram_eq (congrArg Registers.pc agree.registers_eq)
    by_cases names : first.NamesPc
    · rw [perform_step_of_running runs names, perform_step_of_running runs' (named.mp names)]
      refine ⟨?_, ?_⟩
      · rw [reason?_advanced runs, reason?_advanced runs', stopReason?_eq, stopReason?_eq,
          becomes.status_eq, becomes'.status_eq, statuses.stopReason?_eq]
      · rw [printed_advanced becomes, printed_advanced becomes']
    · rw [perform_step_of_not_namesPc runs names,
        perform_step_of_not_namesPc runs' (named.not.mp names)]
      exact ⟨rfl, rfl⟩
  · have stands := (not_congr (agree.status.eq_iff rfl)).mp runs
    rw [next_of_not_running runs, next_of_not_running stands, perform_step_of_not_running runs,
      perform_step_of_not_running stands, stopReason?_eq, stopReason?_eq,
      agree.status.stopReason?_eq]
    refine ⟨agree, ?_, rfl⟩
    exact if_congr (agree.status.eq_iff rfl) rfl rfl

/-- Machines that agree still do after any number of steps before the first that comes to a
comparison. -/
theorem iterate_next (agree : Agree first second) {steps : Nat}
    (goesOn : ∀ k < steps, ¬ (Machine.next^[k] first).Compares) :
    Agree (Machine.next^[steps] first) (Machine.next^[steps] second) := by
  induction steps with
  | zero => exact agree
  | succ steps ih =>
      rw [Function.iterate_succ_apply', Function.iterate_succ_apply']
      exact ((ih fun k early => goesOn k (Nat.lt_succ_of_lt early)).next
        (goesOn steps (Nat.lt_succ_self steps))).1

end Agree

/-- **Two runs under different profiles** are the same up to the first branch that compares. The two
machines have the same registers, the same memory and the same histories, and both run. As long as
no branch that compares has been fetched they have the same registers, program counter and count of
steps, have shown and printed the same, and their statuses have the same name; their faults have one
kind and one address, and are the same unless a jump is the last byte of the memory. A jump goes to
the byte behind it in both. -/
theorem agree_until_branchIf (first second : Machine) (ram : first.ram = second.ram)
    (registers : first.registers = second.registers)
    (observations : first.observations = second.observations) (runs : first.status = .running)
    (runs' : second.status = .running) (steps : Nat)
    (goesOn : ∀ k < steps, ¬ (first.session (List.replicate k .step)).1.Compares) :
    let one := first.session (List.replicate steps .step)
    let other := second.session (List.replicate steps .step)
    (one.1.registers = other.1.registers ∧ one.1.ram = other.1.ram ∧
      one.1.observations = other.1.observations) ∧
    one.1.status.name = other.1.status.name ∧
    one.2.map (fun reply => (reply.answer, reply.effects.printed)) =
      other.2.map (fun reply => (reply.answer, reply.effects.printed)) ∧
    one.1.status.fault?.map (fun fault => (fault.cause.kind, fault.pc)) =
      other.1.status.fault?.map (fun fault => (fault.cause.kind, fault.pc)) ∧
    (¬ first.ram.HoldsAt (first.ram.size - 1) [Mnemonic.jump.opcode] →
      one.1.status = other.1.status) ∧
    ∀ target, one.1.status = .running →
      one.1.ram.HoldsAt one.1.registers.pc [Mnemonic.jump.opcode, target] →
        ∀ machine ∈ [one.1, other.1],
          machine.next.registers = countStep (one.1.registers.goTo target.toNat) := by
  intro one other
  have start : Agree first second :=
    ⟨ram, registers, observations, runs' ▸ runs ▸ .same _⟩
  simp only [session_replicate_step] at goesOn
  have agree := start.iterate_next goesOn
  simp only [one, other, session_replicate_step]
  refine ⟨⟨agree.registers_eq, agree.ram_eq, agree.observations_eq⟩, agree.status.name_eq, ?_,
    agree.status.fault?_eq, ?_, ?_⟩
  · rw [List.map_map, List.map_map]
    refine List.map_congr_left fun k early => ?_
    have before := List.mem_range.mp early
    have made := (start.iterate_next fun i less => goesOn i (Nat.lt_trans less before)).next
      (goesOn k before)
    exact Prod.ext made.2.1 made.2.2
  · have same := agree.status
    rw [ram_iterate_next] at same
    exact same.eq_of_not_holdsAt
  · intro target runs holds
    have runs' := (agree.status.eq_iff rfl).mp runs
    refine List.forall_mem_cons.mpr ⟨?_, List.forall_mem_singleton.mpr ?_⟩
    · rw [next_of_running runs, (becomes_of_jump holds).registers_eq]
    · rw [agree.ram_eq, agree.registers_eq] at holds
      rw [next_of_running runs', (becomes_of_jump holds).registers_eq, agree.registers_eq]

/-- A machine that shows a register and comes to a jump in the last byte of its memory meets the
same fault under two profiles, for a different cause. -/
theorem exists_last_jump :
    let machine (profile : Profile) : Machine :=
      { zeroed profile 1 3 with
        ram := ⟨[Mnemonic.display.opcode, 0, Mnemonic.jump.opcode]⟩, state := .running }
    let behind (profile : Profile) := (machine profile).session (List.replicate 2 .step)
    (∀ k < 2, ¬ ((machine .classic).session (List.replicate k .step)).1.Compares) ∧
      ((behind .classic).1.observations = [(0, 0)] ∧
        (behind .classic).1.status ≠ (behind .resolved).1.status) ∧
      (behind .classic).1.registers = (behind .resolved).1.registers ∧
      (behind .classic).1.status.fault?.map (fun fault => (fault.cause.kind, fault.pc)) =
        (behind .resolved).1.status.fault?.map fun fault => (fault.cause.kind, fault.pc) := by
  intro machine behind
  have others : ∀ k < 2,
      (((machine .classic).session (List.replicate k .step)).1.ram.read
        ((machine .classic).session (List.replicate k .step)).1.registers.pc).toOption ≠
          some Mnemonic.branchIf.opcode := by
    decide
  have goesOn (k : Nat) (early : k < 2) :
      ¬ ((machine .classic).session (List.replicate k .step)).1.Compares :=
    fun compares => others k early (congrArg Except.toOption compares.2.read_eq)
  obtain ⟨⟨registers, -⟩, -, -, fault, -⟩ :=
    agree_until_branchIf (machine .classic) (machine .resolved) rfl rfl rfl rfl rfl 2 goesOn
  exact ⟨goesOn, ⟨by decide, by decide⟩, registers, fault⟩

end Machine

end ByteMachine
