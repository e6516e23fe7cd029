import ByteMachine.Proofs.Machine.Run

/-!
# What a step depends on

Two machines are in the `SamePlace` if nothing that a step looks at tells them apart: their
memories, the values in their registers, their program counters and their statuses. How many steps
they have counted, what they have shown and whether they trace may differ. If the two also fetch the
same, their steps do the same (`SamePlace.advance`); for machines of one profile that goes without
saying (`SamePlace.next`).

## Main results

* `Instruction.execute_withSteps`: executing an instruction does not look at the count of steps.
* `SamePlace.advance`: one step of two machines that are in the same place.
-/

namespace ByteMachine

/-- An execution with another count of steps in the registers that it leaves. -/
def Execution.withSteps (steps : Nat) : Execution → Execution
  | .next registers report => .next { registers with steps } report
  | execution => execution

namespace Registers

variable (registers : Registers) (steps : Nat)

/-- Putting a value into a register does not look at the count of steps. -/
theorem assign_withSteps (register value : UInt8) :
    ({ registers with steps } : Registers).assign register value =
      (registers.assign register value).withSteps steps := by
  have found : ({ registers with steps } : Registers).get? register = registers.get? register := rfl
  rw [assign, assign, found]
  cases registers.get? register with
  | none => rfl
  | some _ => rfl

/-- Changing a register by another one does not look at the count of steps. -/
theorem combine_withSteps (target source : UInt8) (f : UInt8 → UInt8 → UInt8) :
    ({ registers with steps } : Registers).combine target source f =
      (registers.combine target source f).withSteps steps := by
  have found (register : UInt8) :
      ({ registers with steps } : Registers).get? register = registers.get? register := rfl
  rw [combine, combine, found, found]
  cases registers.get? target with
  | none => rfl
  | some _ =>
      cases registers.get? source with
      | none => rfl
      | some _ => rfl

/-- Registers that hold the same at the same program counter differ in the count of steps at
most. -/
theorem eq_withSteps {first second : Registers} (values : first.values = second.values)
    (pc : first.pc = second.pc) : second = { first with steps := second.steps } := by
  obtain ⟨_, _, _⟩ := first
  obtain ⟨_, _, _⟩ := second
  cases values
  cases pc
  rfl

end Registers

/-- Executing an instruction does not look at the **count of steps**, which is handed through. So
two machines that differ in it alone do the same. -/
theorem Instruction.execute_withSteps (ram : Ram) (registers : Registers) (steps : Nat)
    (instruction : Instruction) :
    instruction.execute ram { registers with steps } =
      (instruction.execute ram registers).withSteps steps := by
  cases instruction with
  | exit => rfl
  | store register value => exact registers.assign_withSteps ..
  | load register value => exact registers.assign_withSteps ..
  | add target source value => exact registers.combine_withSteps ..
  | sub target source value => exact registers.combine_withSteps ..
  | branchIf register value address =>
      have found : ({ registers with steps } : Registers).get? register = registers.get? register :=
        rfl
      cases address with
      | none => rfl
      | some target =>
          rw [execute, execute, found]
          by_cases holds : registers.get? register = some value
          · rw [if_pos holds, if_pos holds]
            rfl
          · rw [if_neg holds, if_neg holds]
            rfl
  | jump address =>
      cases address with
      | some target => rfl
      | none =>
          rw [execute, execute]
          cases ram.read (registers.pc + 1) with
          | ok target => rfl
          | error _ => rfl
  | display register =>
      have found : ({ registers with steps } : Registers).get? register = registers.get? register :=
        rfl
      rw [execute, execute, found]
      cases registers.get? register with
      | none => rfl
      | some value => rfl

namespace Machine

/-- Two machines are in the **same place**: a step that fetches the same finds the same. Their
profiles and their counts of steps may differ. -/
structure SamePlace (first second : Machine) : Prop where
  ram_eq : first.ram = second.ram
  values_eq : first.registers.values = second.registers.values
  pc_eq : first.registers.pc = second.registers.pc
  status_eq : first.status = second.status

/-- Two machines **become** alike: they leave the same values and the same program counter, show the
same, end with the same status, and have counted alike. -/
structure BecomeAlike (first second one other : Machine) (after after' : Registers)
    (shown : List (UInt8 × UInt8)) (status : Status) : Prop where
  becomes : first.Becomes after shown status one
  becomes' : second.Becomes after' shown status other
  values_eq : after.values = after'.values
  pc_eq : after.pc = after'.pc
  steps_eq : ∃ made, after.steps = first.registers.steps + made ∧
    after'.steps = second.registers.steps + made

variable {first second : Machine}

namespace SamePlace

/-- Two machines in the same place execute the same instruction with the same outcome. -/
theorem execute_eq (same : SamePlace first second) (instruction : Instruction) :
    instruction.execute second.ram second.registers =
      (instruction.execute first.ram first.registers).withSteps second.registers.steps := by
  rw [← same.ram_eq, Registers.eq_withSteps same.values_eq same.pc_eq]
  exact Instruction.execute_withSteps ..

/-- **One step** of two machines that run in the same place and fetch the same there: they become
alike, with the same observations and the same status. -/
theorem advance (same : SamePlace first second)
    (fetches : second.ram.fetch second.profile second.registers.pc =
      first.ram.fetch first.profile first.registers.pc) :
    ∃ after after' shown status,
      BecomeAlike first second first.advanced.machine second.advanced.machine after after' shown
        status := by
  have pc := same.pc_eq
  have count : first.registers.count = second.registers.count :=
    congrArg List.length same.values_eq
  -- What changes nothing but the status leaves the two as they were.
  have stopped {status : Status}
      (one : first.Becomes first.registers [] status first.advanced.machine)
      (other : second.Becomes second.registers [] status second.advanced.machine) :
      ∃ after after' shown status,
        BecomeAlike first second first.advanced.machine second.advanced.machine after after' shown
          status :=
    ⟨_, _, _, _, one, other, same.values_eq, pc, 0, rfl, rfl⟩
  by_cases names : first.NamesPc
  case neg =>
    have names' := (namesPc_congr same.ram_eq pc).not.mp names
    rw [advanced_of_not_namesPc names, advanced_of_not_namesPc names'] at stopped ⊢
    exact stopped first.becomes_self (same.status_eq ▸ second.becomes_self)
  cases fetched : first.ram.fetch first.profile first.registers.pc with
  | error error =>
      obtain ⟨cause, causes⟩ := names.exists_ofFetch fetched
      have other := advance_of_fetch_error (fetches.trans fetched) (pc ▸ causes)
      rw [← pc] at other
      exact stopped (advance_of_fetch_error fetched causes) other
  | ok instruction =>
      have fetched' := fetches.trans fetched
      have executed' := same.execute_eq instruction
      cases executed : instruction.execute first.ram first.registers with
      | halt =>
          rw [executed] at executed'
          exact ⟨_, _, _, _, advance_of_halt fetched executed, advance_of_halt fetched' executed',
            same.values_eq, pc, 1, rfl, rfl⟩
      | invalidRegister register =>
          rw [executed] at executed'
          have other := advance_of_invalidRegister fetched' executed'
          rw [← pc, ← count] at other
          exact stopped (advance_of_invalidRegister fetched executed) other
      | noTarget error =>
          rw [executed] at executed'
          obtain ⟨named, names⟩ := Meets.exists_named_of_noTarget
            (Ram.fetch_eq_ok_iff.mp fetched) executed
          have other := advance_of_noTarget fetched' executed' names
          rw [← pc] at other
          exact stopped (advance_of_noTarget fetched executed names) other
      | next after report =>
          rw [executed] at executed'
          have other := advance_of_next fetched' executed'
          have steps := (Instruction.count_and_steps_of_execute executed).2
          rw [← pc, ← same.ram_eq, ← same.status_eq] at other
          exact ⟨_, _, _, _, advance_of_next fetched executed, other, rfl, rfl, 1,
            congrArg (· + 1) steps, rfl⟩

/-- Two machines of one profile in the same place are so behind a step. -/
theorem next (profile : first.profile = second.profile) (same : SamePlace first second) :
    SamePlace first.next second.next := by
  by_cases runs : first.status = .running
  · have fetches : second.ram.fetch second.profile second.registers.pc =
        first.ram.fetch first.profile first.registers.pc := by
      rw [profile, same.ram_eq, same.pc_eq]
    obtain ⟨after, after', shown, status, alike⟩ := same.advance fetches
    rw [next_of_running runs, next_of_running (same.status_eq ▸ runs)]
    constructor
    · rw [alike.becomes.ram_eq, alike.becomes'.ram_eq, same.ram_eq]
    · rw [alike.becomes.registers_eq, alike.becomes'.registers_eq, alike.values_eq]
    · rw [alike.becomes.registers_eq, alike.becomes'.registers_eq, alike.pc_eq]
    · rw [alike.becomes.status_eq, alike.becomes'.status_eq]
  · rw [next_of_not_running runs, next_of_not_running (same.status_eq ▸ runs)]
    exact same

end SamePlace

end Machine

end ByteMachine
