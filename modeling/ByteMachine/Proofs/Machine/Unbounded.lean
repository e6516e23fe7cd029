import ByteMachine.Proofs.Machine.Lockstep
import ByteMachine.Proofs.Machine.Run

/-!
# Arithmetic without bounds

The wide machine is the machine with registers that hold integers: a store or a load puts an operand
into one of them, an addition and a subtraction leave their exact result there, and nothing is ever
reduced. All else is as in the machine, the memory and the fetch too.

A machine `Reduces` a wide one if it stands at the same address with the same status, and holds and
has shown the residues modulo 256 of what the wide machine holds and has shown. Where images carry
no targets, no comparison leads anywhere, so reducing at every write comes to the same as reducing
once, at the end.

## Main results

* `numberOf_add_of_emod`, `numberOf_sub_of_emod`: arithmetic on bytes is that on residues.
* `Reduces.of_becomes`: what a step must preserve.
* `Reduces.execute`, `Reduces.next`: steps keep a machine reduced.
* `reduces_of_load`: so does any number of steps behind a load.
-/

namespace ByteMachine

/-- The **wide machine**, whose registers hold integers of any size. It fetches from a memory as the
machine does, and computes without a carry being lost. -/
structure WideMachine where
  profile : Profile
  ram : Ram
  values : List Int
  pc : Int
  steps : Nat
  status : Status
  observations : List (UInt8 × Int)
  deriving DecidableEq, Repr

namespace WideMachine

/-- The wide machine as it starts: at address zero of a loaded memory, with zeros. -/
def start (profile : Profile) (registerCount : Nat) (ram : Ram) : WideMachine :=
  ⟨profile, ram, List.replicate registerCount 0, 0, 0, .running, []⟩

/-- The machine stopped by a fault of the instruction that it stands at. -/
def stop (wide : WideMachine) (cause : FaultCause) : WideMachine :=
  { wide with status := .faulted ⟨cause, wide.pc⟩ }

/-- The machine stopped by a fault whose message can be written. Otherwise no step is made, and the
machine is left as it is. -/
def stopFor (wide : WideMachine) : Except NumeralTooLong FaultCause → WideMachine
  | .ok cause => wide.stop cause
  | .error _ => wide

/-- Goes on at an address, one step later. Outside the memory that is a fault. -/
def goTo (wide : WideMachine) (address : Int) : WideMachine :=
  { wide with
    pc := address
    steps := wide.steps + 1
    status := if wide.ram.contains address then wide.status
      else .faulted ⟨.outOfBounds address, wide.pc⟩ }

/-- A register set to a value of any size. -/
def set (wide : WideMachine) (register : UInt8) (value : Int) : WideMachine :=
  { wide with values := wide.values.set register.toNat value }

/-- One more value shown, as it is and not modulo 256, so it may be negative. -/
def observe (wide : WideMachine) (register : UInt8) (value : Int) : WideMachine :=
  { wide with observations := wide.observations ++ [(register, value)] }

/-- Puts a value into a register that must exist, and goes on behind the instruction. -/
def assign (wide : WideMachine) (register value : UInt8) : WideMachine :=
  match wide.values[register.toNat]? with
  | none => wide.stop (.invalidRegister register wide.values.length)
  | some _ => (wide.set register value.toNat).goTo (wide.pc + 3)

/-- Changes a register by another one, both of which must exist, without taking a remainder. -/
def combine (wide : WideMachine) (target source : UInt8) (f : Int → Int → Int) : WideMachine :=
  match wide.values[target.toNat]?, wide.values[source.toNat]? with
  | none, _ => wide.stop (.invalidRegister target wide.values.length)
  | some _, none => wide.stop (.invalidRegister source wide.values.length)
  | some old, some other => (wide.set target (f old other)).goTo (wide.pc + 4)

/-- **Executing** an instruction without its target keeps the machine reduced, one case for each row
of the table. A comparison of residues decides nothing here, since no target is carried. -/
def execute (wide : WideMachine) : Instruction → WideMachine
  | .exit => { wide with steps := wide.steps + 1, status := .halted }
  | .store register value => wide.assign register value
  | .load register value => wide.assign register value
  | .add target source value =>
    wide.combine target source fun old other => old + other + value.toNat
  | .sub target source value =>
    wide.combine target source fun old other => old - other - value.toNat
  | .branchIf register value (some target) =>
    if wide.values[register.toNat]? = some (value.toNat : Int) then wide.goTo target.toNat
    else wide.goTo (wide.pc + 4)
  | .branchIf _ _ none => wide.goTo (wide.pc + 3)
  | .jump (some target) => wide.goTo target.toNat
  | .jump none =>
    match wide.ram.read (wide.pc + 1) with
    | .ok target => wide.goTo target.toNat
    | .error error => wide.stopFor (error.named.map .noTarget)
  | .display register =>
    match wide.values[register.toNat]? with
    | some value => (wide.observe register value).goTo (wide.pc + 2)
    | none => wide.goTo (wide.pc + 2)

/-- One step. A machine that has stopped stays as it is. -/
def step (wide : WideMachine) : WideMachine :=
  match wide.status with
  | .running =>
    match wide.ram.fetch wide.profile wide.pc with
    | .ok instruction => wide.execute instruction
    | .error error => wide.stopFor (FaultCause.ofFetch wide.pc error)
  | _ => wide

/-- A machine that does not run stays as it is, with its count of steps. -/
theorem step_of_not_running {wide : WideMachine} (stands : wide.status ≠ .running) :
    wide.step = wide := by
  rw [step]
  cases status : wide.status with
  | running => exact absurd status stands
  | _ => rfl

end WideMachine

/-- A value that was shown, modulo 256. -/
def shownResidue (shown : UInt8 × Int) : UInt8 × Int :=
  (shown.1, shown.2 % 256)

/-- A machine **reduces** a wide one: it is where that is, and holds and has shown its values modulo
256. -/
structure Reduces (wide : WideMachine) (machine : Machine) : Prop where
  profile_eq : machine.profile = wide.profile
  ram_eq : machine.ram = wide.ram
  pc_eq : machine.registers.pc = wide.pc
  steps_eq : machine.registers.steps = wide.steps
  status_eq : machine.status = wide.status
  numbers_eq : machine.registers.numbers = wide.values.map (· % 256)
  observations_eq : machine.observations.map shownNumber = wide.observations.map shownResidue

/-! ### Residues -/

section Residues

variable {a b : UInt8} {x y : Int}

/-- The residue of a sum is that of the sum of residues, so a carry can be dropped at any time. -/
theorem numberOf_add_of_emod (first : numberOf a = x % 256) (second : numberOf b = y % 256)
    (c : UInt8) : numberOf (a + b + c) = (x + y + c.toNat) % 256 := by
  rw [numberOf_add, first, second]
  omega

/-- The residue of a difference is that of the difference of residues, negative or not. -/
theorem numberOf_sub_of_emod (first : numberOf a = x % 256) (second : numberOf b = y % 256)
    (c : UInt8) : numberOf (a - b - c) = (x - y - c.toNat) % 256 := by
  rw [numberOf_sub, first, second]
  omega

theorem numberOf_eq_emod (a : UInt8) : numberOf a = (a.toNat : Int) % 256 := by
  have small := a.toNat_lt
  rw [numberOf]
  omega

end Residues

namespace Reduces

variable {wide : WideMachine} {machine : Machine} (reduces : Reduces wide machine)

include reduces

/-- The value of a register is the residue of the wide one, if the register exists. -/
theorem map_get? (register : UInt8) :
    (machine.registers.get? register).map numberOf =
      wide.values[register.toNat]?.map (· % 256) := by
  have numbers := congrArg (·[register.toNat]?) reduces.numbers_eq
  simp only [Registers.numbers, List.getElem?_map] at numbers
  exact numbers

/-- Both machines have the same number of registers, as the wide one reduces to the other. -/
theorem count_eq : machine.registers.count = wide.values.length := by
  have lengths := congrArg List.length reduces.numbers_eq
  rwa [Registers.numbers, List.length_map, List.length_map] at lengths

/-- A register exists in both machines or in none, and its values go together. -/
theorem get?_cases (register : UInt8) :
    (machine.registers.get? register = none ∧ wide.values[register.toNat]? = none) ∨
      ∃ byte value, machine.registers.get? register = some byte ∧
        wide.values[register.toNat]? = some value ∧ numberOf byte = value % 256 := by
  have same := reduces.map_get? register
  cases found : machine.registers.get? register with
  | none =>
      rw [found, Option.map_none] at same
      exact .inl ⟨rfl, Option.map_eq_none_iff.mp same.symm⟩
  | some byte =>
      rw [found, Option.map_some] at same
      obtain ⟨value, there, residue⟩ := Option.map_eq_some_iff.mp same.symm
      exact .inr ⟨byte, value, rfl, there, residue.symm⟩

theorem numbers_set (register : UInt8) {byte : UInt8} {value : Int}
    (residue : numberOf byte = value % 256) :
    (machine.registers.set register byte).numbers =
      (wide.set register value).values.map (· % 256) := by
  rw [Registers.numbers_set, reduces.numbers_eq, residue, WideMachine.set, List.map_set]

/-! ### One step -/

/-- What a machine becomes reduces what the wide machine has moved to. All cases of a step go
through this lemma. -/
theorem of_becomes {registers : Registers} {shown : List (UInt8 × UInt8)} {status : Status}
    {after : Machine} (becomes : machine.Becomes registers shown status after)
    {moved : WideMachine} {later : List (UInt8 × Int)} (profile : wide.profile = moved.profile)
    (ram : wide.ram = moved.ram) (pc : registers.pc = moved.pc)
    (steps : registers.steps = moved.steps) (same : status = moved.status)
    (numbers : registers.numbers = moved.values.map (· % 256))
    (observations : moved.observations = wide.observations ++ later)
    (residues : shown.map shownNumber = later.map shownResidue) : Reduces moved after where
  profile_eq := by rw [becomes.profile_eq, reduces.profile_eq, profile]
  ram_eq := by rw [becomes.ram_eq, reduces.ram_eq, ram]
  pc_eq := by rw [becomes.registers_eq, pc]
  steps_eq := by rw [becomes.registers_eq, steps]
  status_eq := by rw [becomes.status_eq, same]
  numbers_eq := by rw [becomes.registers_eq, numbers]
  observations_eq := by
    rw [becomes.observations_eq, observations, List.map_append, List.map_append,
      reduces.observations_eq, residues]

/-- A fault that leaves the registers stops both machines, for the same cause. -/
theorem stop {cause : FaultCause} {after : Machine}
    (becomes : machine.Becomes machine.registers []
      (.faulted ⟨cause, machine.registers.pc⟩) after) : Reduces (wide.stop cause) after := by
  rw [reduces.pc_eq] at becomes
  exact reduces.of_becomes becomes rfl rfl reduces.pc_eq reduces.steps_eq rfl reduces.numbers_eq
    (List.append_nil _).symm rfl

variable {instruction : Instruction}
  (fetched : machine.ram.fetch machine.profile machine.registers.pc = .ok instruction)

include fetched

theorem halt (executed : instruction.execute machine.ram machine.registers = .halt) :
    Reduces { wide with steps := wide.steps + 1, status := .halted } machine.advanced.machine :=
  reduces.of_becomes (Machine.advance_of_halt fetched executed) rfl rfl reduces.pc_eq
    (congrArg (· + 1) reduces.steps_eq) rfl reduces.numbers_eq (List.append_nil _).symm rfl

/-- A register that does not exist stops both machines, and the same register is named. -/
theorem invalidRegister {register : UInt8}
    (executed : instruction.execute machine.ram machine.registers = .invalidRegister register) :
    Reduces (wide.stop (.invalidRegister register wide.values.length))
      machine.advanced.machine := by
  rw [← reduces.count_eq]
  exact reduces.stop (Machine.advance_of_invalidRegister fetched executed)

/-- An instruction that is done leads both machines to the same address, if what it has put into
the registers and shown goes together. -/
theorem goTo {registers : Registers} {report : Report} {moved : WideMachine}
    {later : List (UInt8 × Int)} {address : Int}
    (executed : instruction.execute machine.ram machine.registers = .next registers report)
    (stays : moved = { wide with values := moved.values, observations := moved.observations })
    (numbers : registers.numbers = moved.values.map (· % 256))
    (observations : moved.observations = wide.observations ++ later)
    (shown : report.shown.map shownNumber = later.map shownResidue)
    (pc : registers.pc = address) : Reduces (moved.goTo address) machine.advanced.machine := by
  have becomes := Machine.advance_of_next fetched executed
  have steps := (Instruction.count_and_steps_of_execute executed).2
  rw [reduces.status_eq, reduces.pc_eq, reduces.ram_eq, pc] at becomes
  rw [reduces.steps_eq] at steps
  rw [stays]
  exact reduces.of_becomes becomes rfl rfl pc (congrArg (· + 1) steps) rfl numbers observations
    shown

/-- An instruction that changes no register leads both machines to the same address. -/
theorem goOn {registers : Registers} {report : Report} {address : Int}
    (executed : instruction.execute machine.ram machine.registers = .next registers report)
    (silent : report.shown = []) (same : registers.values = machine.registers.values)
    (pc : registers.pc = address) : Reduces (wide.goTo address) machine.advanced.machine := by
  have numbers : registers.numbers = machine.registers.numbers := congrArg (List.map numberOf) same
  refine reduces.goTo fetched executed rfl (numbers.trans reduces.numbers_eq)
    (List.append_nil _).symm ?_ pc
  rw [silent]
  rfl

/-- Putting a value into a register keeps the machine reduced: a byte is its own residue. -/
theorem assign {register value : UInt8}
    (executed : instruction.execute machine.ram machine.registers =
      machine.registers.assign register value) :
    Reduces (wide.assign register value) machine.advanced.machine := by
  rw [Registers.assign] at executed
  rw [WideMachine.assign]
  rcases reduces.get?_cases register with ⟨missing, missing'⟩ | ⟨byte, old, found, found', -⟩
  · simp only [missing] at executed
    simp only [missing']
    exact reduces.invalidRegister fetched executed
  · simp only [found] at executed
    simp only [found']
    refine reduces.goTo fetched executed rfl
      (reduces.numbers_set register (numberOf_eq_emod value)) (List.append_nil _).symm rfl ?_
    exact congrArg (· + 3) reduces.pc_eq

/-- Changing a register by another one keeps the machine reduced, if the operation does; the two
registers may be the same. -/
theorem combine {target source : UInt8} {f : UInt8 → UInt8 → UInt8} {g : Int → Int → Int}
    (residues : ∀ a b x y, numberOf a = x % 256 → numberOf b = y % 256 →
      numberOf (f a b) = g x y % 256)
    (executed : instruction.execute machine.ram machine.registers =
      machine.registers.combine target source f) :
    Reduces (wide.combine target source g) machine.advanced.machine := by
  rw [Registers.combine] at executed
  rw [WideMachine.combine]
  rcases reduces.get?_cases target with ⟨missing, missing'⟩ | ⟨a, x, found, found', residue⟩
  · simp only [missing] at executed
    simp only [missing']
    exact reduces.invalidRegister fetched executed
  · rcases reduces.get?_cases source with ⟨missing, missing'⟩ | ⟨b, y, other, other', residue'⟩
    · simp only [found, missing] at executed
      simp only [found', missing']
      exact reduces.invalidRegister fetched executed
    · simp only [found, other] at executed
      simp only [found', other']
      refine reduces.goTo fetched executed rfl
        (reduces.numbers_set target (residues a b x y residue residue'))
        (List.append_nil _).symm rfl ?_
      exact congrArg (· + 4) reduces.pc_eq

/-- Executing an instruction without its target keeps the machine reduced, one case for each row of
the table. -/
theorem execute (fits : instruction.Fits false) :
    Reduces (wide.execute instruction) machine.advanced.machine := by
  cases instruction with
  | exit => exact reduces.halt fetched rfl
  | store register value => exact reduces.assign fetched rfl
  | load register value => exact reduces.assign fetched rfl
  | add target source value =>
      exact reduces.combine fetched
        (fun _ _ _ _ first second => numberOf_add_of_emod first second value) rfl
  | sub target source value =>
      exact reduces.combine fetched
        (fun _ _ _ _ first second => numberOf_sub_of_emod first second value) rfl
  | branchIf register value address =>
      -- Without its target a branch goes on, whatever it compares.
      cases address with
      | some target => cases fits
      | none =>
          refine reduces.goOn fetched rfl rfl rfl ?_
          rw [← reduces.pc_eq]
          rfl
  | jump address =>
      cases address with
      | some target => cases fits
      | none =>
          rw [WideMachine.execute, ← reduces.ram_eq, ← reduces.pc_eq]
          cases read : machine.ram.read (machine.registers.pc + 1) with
          | ok target =>
              have executed : (Instruction.jump none).execute machine.ram machine.registers =
                  .next (machine.registers.goTo target.toNat) .silent := by
                simp only [Instruction.execute, read]
              exact reduces.goOn fetched executed rfl rfl rfl
          | error error =>
              have executed : (Instruction.jump none).execute machine.ram machine.registers =
                  .noTarget error := by
                simp only [Instruction.execute, read]
              obtain ⟨named, names⟩ := Machine.Meets.exists_named_of_noTarget
                (Ram.fetch_eq_ok_iff.mp fetched) executed
              simp only [names, Except.map, WideMachine.stopFor]
              exact reduces.stop (Machine.advance_of_noTarget fetched executed names)
  | display register =>
      rw [WideMachine.execute, ← reduces.pc_eq]
      rcases reduces.get?_cases register with ⟨missing, missing'⟩ | ⟨a, x, found, found', residue⟩
      · have executed : (Instruction.display register).execute machine.ram machine.registers =
            .next (machine.registers.goTo (machine.registers.pc + 2)) (.noRegister register) := by
          simp only [Instruction.execute, missing]
        simp only [missing']
        exact reduces.goOn fetched executed rfl rfl rfl
      · have executed : (Instruction.display register).execute machine.ram machine.registers =
            .next (machine.registers.goTo (machine.registers.pc + 2)) (.observed register a) := by
          simp only [Instruction.execute, found]
        simp only [found']
        refine reduces.goTo fetched executed rfl reduces.numbers_eq rfl ?_ rfl
        simp only [Report.shown, List.map_cons, List.map_nil, shownNumber, shownResidue, residue]

omit fetched

/-- Every step keeps the machine **reduced**, where images carry no targets. -/
theorem next (omits : machine.profile.encodesTargets = false) :
    Reduces wide.step machine.next := by
  by_cases runs : machine.status = .running
  · have runs' := reduces.status_eq.symm.trans runs
    rw [Machine.next_of_running runs, WideMachine.step]
    simp only [runs', ← reduces.ram_eq, ← reduces.profile_eq, ← reduces.pc_eq]
    cases fetched : machine.ram.fetch machine.profile machine.registers.pc with
    | ok instruction =>
        have fits := (Ram.fetch_eq_ok_iff.mp fetched).1
        rw [omits] at fits
        exact reduces.execute fetched fits
    | error error =>
        simp only [WideMachine.stopFor]
        by_cases names : machine.NamesPc
        · obtain ⟨cause, causes⟩ := names.exists_ofFetch fetched
          simp only [causes]
          exact reduces.stop (Machine.advance_of_fetch_error fetched causes)
        · rw [Ram.fetch_of_not_contains (mt Ram.names_of_contains names)] at fetched
          cases fetched
          simp only [Ram.refuse_of_not_names names, FaultCause.ofFetch, AccessError.named,
            Except.map]
          rw [Machine.advanced_of_not_namesPc names]
          exact reduces
  · have stands := runs
    rw [reduces.status_eq] at stands
    rw [Machine.next_of_not_running runs, WideMachine.step_of_not_running stands]
    exact reduces

/-- Any number of steps keeps the machine reduced, where images carry no targets. -/
theorem iterate_next (omits : machine.profile.encodesTargets = false) (steps : Nat) :
    Reduces (WideMachine.step^[steps] wide) (Machine.next^[steps] machine) := by
  induction steps with
  | zero => exact reduces
  | succ steps ih =>
      rw [Function.iterate_succ_apply', Function.iterate_succ_apply']
      refine ih.next ?_
      rwa [Machine.profile_iterate_next]

end Reduces

/-! ### Loaded images -/

/-- A machine that has just loaded an image reduces the wide machine at its start. -/
theorem reduces_start (machine : Machine) (image : List UInt8) :
    Reduces (.start machine.profile machine.registers.count (machine.ram.load image))
      (machine.load image) where
  profile_eq := rfl
  ram_eq := machine.ram_load image
  pc_eq := rfl
  steps_eq := rfl
  status_eq := rfl
  numbers_eq := by
    have zeros : (machine.load image).registers.values =
        List.replicate machine.registers.count 0 := rfl
    rw [Registers.numbers, zeros, WideMachine.start, List.map_replicate, List.map_replicate]
    rfl
  observations_eq := rfl

/-- **Wrapped arithmetic is exact arithmetic modulo 256**, where images carry no targets. Behind
every number of steps a machine that has loaded an image is where the wide machine is which started
on the same memory with as many registers, and it has met the same fault if any. Its registers hold
the residues modulo 256 of the exact values, and so do its observations. -/
theorem reduces_of_load (machine : Machine) (image : List UInt8)
    (omits : machine.profile.encodesTargets = false) (steps : Nat) :
    Reduces
      (WideMachine.step^[steps]
        (.start machine.profile machine.registers.count (machine.ram.load image)))
      ((machine.load image).session (List.replicate steps .step)).1 := by
  rw [Machine.session_replicate_step]
  exact (reduces_start machine image).iterate_next omits steps

/-- A loop that takes one from a register and adds the register to itself leaves what is far
below zero, and the machine holds its residue. -/
theorem exists_reduces_of_doubling :
    let machine := Machine.zeroed .classic 2 16
    let image := [Mnemonic.sub.opcode, 0, 1, 1, Mnemonic.add.opcode, 0, 0, 0,
      Mnemonic.display.opcode, 0, Mnemonic.jump.opcode, 0]
    let wide := WideMachine.step^[38]
      (.start machine.profile machine.registers.count (machine.ram.load image))
    let reached := ((machine.load image).session (List.replicate 38 .step)).1
    machine.profile.encodesTargets = false ∧ wide.values = [-2046, 0] ∧
      reached.registers.values = [2, 0] ∧ Reduces wide reached := by
  intro machine image wide reached
  exact ⟨rfl, by decide +kernel, by decide +kernel, reduces_of_load machine image rfl 38⟩

end ByteMachine
