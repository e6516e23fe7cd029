import Mathlib.Data.Finset.Card
import Mathlib.Data.Finset.Range
import ByteMachine.Proofs.Machine.Loaded
import ByteMachine.Proofs.Machine.Run

/-!
# Control without data

Where images carry no targets, what stands in the registers never decides where a machine goes. A
branch that compares has nowhere to go but on, a jump goes where the memory says, and an
instruction that needs a register fails for the number of registers and not for their values. So
two machines are kept `Alike` by steps if they differ in nothing but values and histories.

A machine is then alike to itself whenever its program counter comes back. There are no more places
to be at than bytes in the memory, so it stops within that number of steps or never.

## Main results

* `Instruction.alike_execute`: executing an instruction without its target.
* `InStep.next`: two machines that are alike make the same step.
* `control_without_data`: and so on, and what follows for a single machine.
-/

namespace ByteMachine

/-- Executions that end **alike**: for the same reason, or with the program counter at the same
address and with something shown of the same register. -/
inductive Execution.Alike : Execution → Execution → Prop
  | halt : Alike .halt .halt
  | invalidRegister (register : UInt8) :
      Alike (.invalidRegister register) (.invalidRegister register)
  | noTarget (error : AccessError) : Alike (.noTarget error) (.noTarget error)
  | next {one other : Registers} {report report' : Report} (pc : one.pc = other.pc)
      (shown : report.shown.map Prod.fst = report'.shown.map Prod.fst) :
      Alike (.next one report) (.next other report')

namespace Machine

/-- Machines are **alike** if they differ at most in what stands in their registers, in their counts
of steps and in their histories. -/
structure Alike (first second : Machine) : Prop where
  profile_eq : first.profile = second.profile
  ram_eq : first.ram = second.ram
  count_eq : first.registers.count = second.registers.count
  pc_eq : first.registers.pc = second.registers.pc
  status_eq : first.status = second.status

/-- Two machines have come to two others **in step**: these are alike, they have counted the same
number of steps since, and they have shown the same registers since. -/
structure InStep (first second one other : Machine) : Prop extends Alike one other where
  steps_eq : ∃ made, one.registers.steps = first.registers.steps + made ∧
    other.registers.steps = second.registers.steps + made
  shown_eq : ∃ early late, one.observations = first.observations ++ early ∧
    other.observations = second.observations ++ late ∧ early.map Prod.fst = late.map Prod.fst

end Machine

/-! ### One instruction -/

namespace Registers

variable {first second : Registers}

/-- Whether a register exists depends on the number of registers alone, not on what is in them. -/
theorem get?_eq_none_congr (count : first.count = second.count) (register : UInt8) :
    first.get? register = none ↔ second.get? register = none := by
  rw [get?_eq_none_iff, get?_eq_none_iff, count]

variable (count : first.count = second.count) (pc : first.pc = second.pc)

include count pc

/-- Putting a value into a register ends alike for registers that are alike: the value does not
matter. -/
theorem alike_assign (register value : UInt8) :
    (first.assign register value).Alike (second.assign register value) := by
  have same := get?_eq_none_congr count register
  rw [assign, assign]
  cases found : first.get? register with
  | none =>
      rw [same.mp found]
      exact .invalidRegister register
  | some _ =>
      cases found' : second.get? register with
      | none =>
          rw [same.mpr found'] at found
          cases found
      | some _ => exact .next (congrArg (· + 3) pc) rfl

/-- Changing a register by another one ends alike, whatever it is changed to. -/
theorem alike_combine (target source : UInt8) (f : UInt8 → UInt8 → UInt8) :
    (first.combine target source f).Alike (second.combine target source f) := by
  have sameTarget := get?_eq_none_congr count target
  have sameSource := get?_eq_none_congr count source
  rw [combine, combine]
  cases found : first.get? target with
  | none =>
      rw [sameTarget.mp found]
      exact .invalidRegister target
  | some _ =>
      cases found' : second.get? target with
      | none =>
          rw [sameTarget.mpr found'] at found
          cases found
      | some _ =>
          cases looked : first.get? source with
          | none =>
              rw [sameSource.mp looked]
              exact .invalidRegister source
          | some _ =>
              cases looked' : second.get? source with
              | none =>
                  rw [sameSource.mpr looked'] at looked
                  cases looked
              | some _ => exact .next (congrArg (· + 4) pc) rfl

/-- Executing an instruction without its target ends **alike**: no value of a register decides where
it goes on, for the only branch that compares has nowhere else to go. -/
theorem alike_execute {instruction : Instruction} (fits : instruction.Fits false) (ram : Ram) :
    (instruction.execute ram first).Alike (instruction.execute ram second) := by
  have behind (length : Int) : (first.goTo (first.pc + length)).pc =
      (second.goTo (second.pc + length)).pc := congrArg (· + length) pc
  cases instruction with
  | exit => exact .halt
  | store register value => exact alike_assign count pc ..
  | load register value => exact alike_assign count pc ..
  | add target source value => exact alike_combine count pc ..
  | sub target source value => exact alike_combine count pc ..
  | branchIf register value address =>
      cases address with
      | some _ => cases fits
      | none => exact .next (behind _) rfl
  | jump address =>
      cases address with
      | some _ => cases fits
      | none =>
          rw [Instruction.execute, Instruction.execute, pc]
          split
          · exact .next rfl rfl
          · exact .noTarget _
  | display register =>
      have same := get?_eq_none_congr count register
      rw [Instruction.execute, Instruction.execute]
      cases found : first.get? register with
      | none =>
          rw [same.mp found]
          exact .next (behind _) rfl
      | some _ =>
          cases found' : second.get? register with
          | none =>
              rw [same.mpr found'] at found
              cases found
          | some _ => exact .next (behind _) rfl

end Registers

namespace Machine

variable {first second one other : Machine}

/-! ### One step -/

/-- Two machines that are alike are in step with themselves: nothing has happened yet. -/
theorem Alike.inStep (alike : Alike first second) : InStep first second first second where
  toAlike := alike
  steps_eq := ⟨0, rfl, rfl⟩
  shown_eq := ⟨[], [], (List.append_nil _).symm, (List.append_nil _).symm, rfl⟩

/-- Stretches of two runs that follow each other in step are one stretch in step. -/
theorem InStep.trans {last last' : Machine} (inStep : InStep first second one other)
    (more : InStep one other last last') : InStep first second last last' where
  toAlike := more.toAlike
  steps_eq := by
    obtain ⟨made, steps, steps'⟩ := inStep.steps_eq
    obtain ⟨further, later, later'⟩ := more.steps_eq
    exact ⟨made + further, by rw [later, steps, Nat.add_assoc],
      by rw [later', steps', Nat.add_assoc]⟩
  shown_eq := by
    obtain ⟨early, early', shown, shown', same⟩ := inStep.shown_eq
    obtain ⟨late, late', more, more', same'⟩ := more.shown_eq
    exact ⟨early ++ late, early' ++ late', by rw [more, shown, List.append_assoc],
      by rw [more', shown', List.append_assoc], by rw [List.map_append, same, same',
        List.map_append]⟩

/-- What two machines that are alike become is in step if it is alike. This is the form in which
each case of a step is shown. -/
theorem Alike.inStep_of_becomes (alike : Alike first second) {registers registers' : Registers}
    {shown shown' : List (UInt8 × UInt8)} {status status' : Status}
    (becomes : first.Becomes registers shown status one)
    (becomes' : second.Becomes registers' shown' status' other)
    (count : registers.count = registers'.count) (pc : registers.pc = registers'.pc)
    (same : status = status') (steps : ∃ made, registers.steps = first.registers.steps + made ∧
      registers'.steps = second.registers.steps + made)
    (indices : shown.map Prod.fst = shown'.map Prod.fst) : InStep first second one other where
  profile_eq := by rw [becomes.profile_eq, becomes'.profile_eq, alike.profile_eq]
  ram_eq := by rw [becomes.ram_eq, becomes'.ram_eq, alike.ram_eq]
  count_eq := by rw [becomes.registers_eq, becomes'.registers_eq, count]
  pc_eq := by rw [becomes.registers_eq, becomes'.registers_eq, pc]
  status_eq := by rw [becomes.status_eq, becomes'.status_eq, same]
  steps_eq := by rw [becomes.registers_eq, becomes'.registers_eq]; exact steps
  shown_eq := ⟨shown, shown', becomes.observations_eq, becomes'.observations_eq, indices⟩

/-- Two machines that are alike and run make the same step, or both fail to make it. -/
theorem Alike.advanced (omits : first.profile.encodesTargets = false)
    (alike : Alike first second) :
    InStep first second first.advanced.machine second.advanced.machine := by
  have fetches : second.ram.fetch second.profile second.registers.pc =
      first.ram.fetch first.profile first.registers.pc := by
    rw [alike.profile_eq, alike.ram_eq, alike.pc_eq]
  by_cases names : first.NamesPc
  case neg =>
    have names' := (namesPc_congr alike.ram_eq alike.pc_eq).not.mp names
    rw [advanced_of_not_namesPc names, advanced_of_not_namesPc names']
    exact alike.inStep
  cases fetched : first.ram.fetch first.profile first.registers.pc with
  | error error =>
      obtain ⟨cause, causes⟩ := names.exists_ofFetch fetched
      refine alike.inStep_of_becomes (advance_of_fetch_error fetched causes)
        (advance_of_fetch_error (fetches.trans fetched) (alike.pc_eq ▸ causes)) alike.count_eq
        alike.pc_eq ?_ ⟨0, rfl, rfl⟩ rfl
      rw [alike.pc_eq]
  | ok instruction =>
      have fetched' := fetches.trans fetched
      have fits := (Ram.fetch_eq_ok_iff.mp fetched).1
      rw [omits] at fits
      have ends := Registers.alike_execute alike.count_eq alike.pc_eq fits first.ram
      have memory : instruction.execute first.ram second.registers =
          instruction.execute second.ram second.registers := by rw [alike.ram_eq]
      rw [memory] at ends
      generalize executed : instruction.execute first.ram first.registers = execution at ends
      generalize executed' : instruction.execute second.ram second.registers = execution' at ends
      cases ends with
      | halt =>
          exact alike.inStep_of_becomes (advance_of_halt fetched executed)
            (advance_of_halt fetched' executed') alike.count_eq alike.pc_eq rfl ⟨1, rfl, rfl⟩ rfl
      | invalidRegister register =>
          refine alike.inStep_of_becomes (advance_of_invalidRegister fetched executed)
            (advance_of_invalidRegister fetched' executed') alike.count_eq alike.pc_eq ?_
            ⟨0, rfl, rfl⟩ rfl
          rw [alike.count_eq, alike.pc_eq]
      | noTarget error =>
          obtain ⟨named, names⟩ := Meets.exists_named_of_noTarget
            (Ram.fetch_eq_ok_iff.mp fetched) executed
          refine alike.inStep_of_becomes (advance_of_noTarget fetched executed names)
            (advance_of_noTarget fetched' executed' names) alike.count_eq alike.pc_eq ?_
            ⟨0, rfl, rfl⟩ rfl
          rw [alike.pc_eq]
      | next pc shown =>
          obtain ⟨count, steps⟩ := Instruction.count_and_steps_of_execute executed
          obtain ⟨count', steps'⟩ := Instruction.count_and_steps_of_execute executed'
          refine alike.inStep_of_becomes (advance_of_next fetched executed)
            (advance_of_next fetched' executed') (count.trans (alike.count_eq.trans count'.symm))
            pc ?_ ⟨1, congrArg (· + 1) steps, congrArg (· + 1) steps'⟩ shown
          rw [alike.ram_eq, pc, alike.status_eq, alike.pc_eq]

/-- Two machines that are alike make the **same step**, or both have stopped and make none. Their
memories are the same, so they fetch the same. -/
theorem Alike.next (omits : first.profile.encodesTargets = false) (alike : Alike first second) :
    InStep first second first.next second.next := by
  by_cases runs : first.status = .running
  · rw [next_of_running runs, next_of_running (alike.status_eq ▸ runs)]
    exact alike.advanced omits
  · rw [next_of_not_running runs, next_of_not_running (alike.status_eq ▸ runs)]
    exact alike.inStep

/-- Two machines that are alike answer the same to a step, up to the values that are shown. -/
theorem Alike.answer_eq (omits : first.profile.encodesTargets = false)
    (alike : Alike first second) :
    (first.perform .step).answer = (second.perform .step).answer := by
  by_cases runs : first.status = .running
  · have runs' := alike.status_eq ▸ runs
    have named := namesPc_congr alike.ram_eq alike.pc_eq
    by_cases names : first.NamesPc
    · rw [perform_step_of_running runs names, perform_step_of_running runs' (named.mp names),
        reason?_advanced runs, reason?_advanced runs', stopReason?_eq, stopReason?_eq,
        (alike.advanced omits).status_eq]
    · rw [perform_step_of_not_namesPc runs names,
        perform_step_of_not_namesPc runs' (named.not.mp names)]
  · rw [perform_step_of_not_running runs, perform_step_of_not_running (alike.status_eq ▸ runs),
      stopReason?_eq, stopReason?_eq, alike.status_eq]

/-! ### Any number of steps -/

/-- Two machines that are alike make the same steps, by induction on their number. -/
theorem Alike.iterate_next (omits : first.profile.encodesTargets = false)
    (alike : Alike first second) (steps : Nat) :
    InStep first second (Machine.next^[steps] first) (Machine.next^[steps] second) := by
  induction steps with
  | zero => exact alike.inStep
  | succ steps ih =>
      have kept : (Machine.next^[steps] first).profile.encodesTargets = false := by
        rw [profile_iterate_next, omits]
      rw [Function.iterate_succ_apply', Function.iterate_succ_apply']
      exact ih.trans (ih.toAlike.next kept)

/-! ### Coming back -/

variable {machine : Machine}

/-- Two machines of one run that run at the same address are alike: the memory is one and the
same. -/
theorem alike_iterate_next {k l : Nat}
    (runs : (next^[k] machine).status = .running ∧
      machine.ram.contains (next^[k] machine).registers.pc = true)
    (runs' : (next^[l] machine).status = .running ∧
      machine.ram.contains (next^[l] machine).registers.pc = true)
    (same : (next^[k] machine).registers.pc.toNat = (next^[l] machine).registers.pc.toNat) :
    Alike (next^[k] machine) (next^[l] machine) where
  profile_eq := by rw [profile_iterate_next, profile_iterate_next]
  ram_eq := by rw [ram_iterate_next, ram_iterate_next]
  count_eq := by rw [count_iterate_next, count_iterate_next]
  pc_eq := by
    have inside := Ram.contains_iff.mp runs.2
    have inside' := Ram.contains_iff.mp runs'.2
    omega
  status_eq := runs.1.trans runs'.1.symm

/-- A machine that passes as many steps as its memory has bytes has been twice at one address, by
the pigeonhole principle. -/
theorem exists_alike_iterate_next (runs : machine.status = .running)
    (inside : machine.ram.contains machine.registers.pc = true)
    (passes : ∀ k < machine.ram.size, (next^[k] machine).Passes) :
    ∃ i j, i < j ∧ j ≤ machine.ram.size ∧ Alike (next^[i] machine) (next^[j] machine) := by
  have visits {k : Nat} (early : k ∈ Finset.range (machine.ram.size + 1)) :=
    runs_iterate_next runs inside passes (Nat.le_of_lt_succ (Finset.mem_range.mp early))
  have fewer : (Finset.range machine.ram.size).card <
      (Finset.range (machine.ram.size + 1)).card := by
    rw [Finset.card_range, Finset.card_range]
    exact Nat.lt_succ_self _
  -- There is one visit more than there are addresses.
  obtain ⟨i, i_early, j, j_early, distinct, same⟩ :=
    Finset.exists_ne_map_eq_of_card_lt_of_maps_to fewer
      (f := fun k => (next^[k] machine).registers.pc.toNat) fun k early => by
        have within := Ram.contains_iff.mp (visits early).2
        refine Finset.mem_coe.mpr (Finset.mem_range.mpr ?_)
        simp only
        omega
  rcases Nat.lt_or_gt_of_ne distinct with less | more
  · exact ⟨i, j, less, Nat.le_of_lt_succ (Finset.mem_range.mp j_early),
      alike_iterate_next (visits i_early) (visits j_early) same⟩
  · exact ⟨j, i, more, Nat.le_of_lt_succ (Finset.mem_range.mp i_early),
      alike_iterate_next (visits j_early) (visits i_early) same.symm⟩

/-- Without targets a machine that passes as many steps as its memory has bytes never stops,
since it comes back to where it has been and does the same again. -/
theorem passes_of_passes (omits : machine.profile.encodesTargets = false)
    (runs : machine.status = .running)
    (inside : machine.ram.contains machine.registers.pc = true)
    (passes : ∀ k < machine.ram.size, (next^[k] machine).Passes) (k : Nat) :
    (next^[k] machine).Passes := by
  obtain ⟨i, j, before, early, alike⟩ := exists_alike_iterate_next runs inside passes
  have start : (next^[i] machine).profile.encodesTargets = false := by
    rw [profile_iterate_next, omits]
  refine passes_of_returns (fun one other => one.profile.encodesTargets = false ∧ Alike one other)
    (fun one other same => ⟨?_, (same.2.next same.1).toAlike⟩) (fun one other same passes => ?_)
    before ⟨start, alike⟩ (fun k less => passes k (Nat.lt_of_lt_of_le less early)) k
  · rw [one.profile_next]
    exact same.1
  · rw [Passes, ← same.2.answer_eq same.1]
    exact passes

/-! ### Loaded images -/

/-- **Control does not depend on data** where images carry no targets. Two machines that differ at
most in what stands in their registers and in what they have shown are after every number of steps
at the same program counter and of the same status, fault and all; they have counted the same
steps, answered the same to every step, and shown the same registers since. So a machine that has
loaded an image stops within as many steps as its memory has bytes, if it ever stops. -/
theorem control_without_data :
    (∀ first second : Machine, first.profile.encodesTargets = false → Alike first second →
      first.registers.steps = second.registers.steps → ∀ steps,
        let one := first.session (List.replicate steps .step)
        let other := second.session (List.replicate steps .step)
        InStep first second one.1 other.1 ∧ one.1.registers.steps = other.1.registers.steps ∧
          one.1.stopReason? = other.1.stopReason? ∧
          one.2.map Reply.answer = other.2.map Reply.answer) ∧
    ∀ (machine : Machine) (image : List UInt8), machine.profile.encodesTargets = false →
      0 < machine.ram.size →
        (∀ limit transition, (machine.load image).runFor limit = .ok transition →
          transition.reason? ≠ none →
            (machine.load image).runFor machine.ram.size = .ok transition) ∧
        ((∀ reply ∈ ((machine.load image).session (List.replicate machine.ram.size .step)).2,
            reply.answer = .reason none) →
          ∀ steps, ∀ reply ∈ ((machine.load image).session (List.replicate steps .step)).2,
            reply.answer = .reason none) := by
  constructor
  · intro first second omits alike counted steps
    simp only [session_replicate_step]
    have inStep := alike.iterate_next omits steps
    refine ⟨inStep, ?_, ?_, ?_⟩
    · obtain ⟨made, one, other⟩ := inStep.steps_eq
      rw [one, other, counted]
    · rw [stopReason?_eq, stopReason?_eq, inStep.status_eq]
    · simp only [List.map_map]
      refine List.map_congr_left fun k _ => ?_
      refine (alike.iterate_next omits k).toAlike.answer_eq ?_
      rw [profile_iterate_next, omits]
  · intro machine image omits positive
    have runs : (machine.load image).status = .running := rfl
    have size : (machine.load image).ram.size = machine.ram.size := by
      rw [ram_load, Ram.size_load]
    have inside : (machine.load image).ram.contains (machine.load image).registers.pc = true := by
      refine Ram.contains_iff.mpr ⟨Int.le_refl 0, ?_⟩
      rw [size]
      exact Int.natCast_pos.mpr positive
    have forever (passes : ∀ k < machine.ram.size, (next^[k] (machine.load image)).Passes) :
        ∀ k, (next^[k] (machine.load image)).Passes :=
      passes_of_passes omits runs inside (size.symm ▸ passes)
    have ready := machine.ready_load image
    constructor
    · intro limit transition made stopped
      rcases ready.passes_or_stops machine.ram.size with
        passes | ⟨k, within, reason, passes, stops⟩
      · rw [runFor_of_passes fun k _ => forever passes k] at made
        cases made
        exact absurd rfl stopped
      · exact runFor_of_reason passes stops made stopped within
    · intro passes steps
      exact forall_replies_iff.mpr fun k _ => forever (forall_replies_iff.mp passes) k

/-- A branch that compares goes on whatever it finds, and a machine that jumps to its own
beginning never stops. -/
theorem exists_control_without_data :
    let first : Machine := { Machine.zeroed .classic 2 4 with
      ram := ⟨[Mnemonic.branchIf.opcode, 0, 7, Mnemonic.exit.opcode]⟩, state := .running }
    let second : Machine := { first with registers := ⟨[7, 0], 0, 0⟩ }
    let looping := (Machine.zeroed .classic 2 4).load [Mnemonic.jump.opcode, 0]
    Alike first second ∧
      (∀ steps, InStep first second (first.session (List.replicate steps .step)).1
        (second.session (List.replicate steps .step)).1) ∧
      ∀ steps, ∀ reply ∈ (looping.session (List.replicate steps .step)).2,
        reply.answer = .reason none := by
  intro first second looping
  have alike : Alike first second := ⟨rfl, rfl, rfl, rfl, rfl⟩
  refine ⟨alike, fun steps => ?_, ?_⟩
  · exact (control_without_data.1 first second rfl alike rfl steps).1
  · exact (control_without_data.2 (Machine.zeroed .classic 2 4) [Mnemonic.jump.opcode, 0] rfl
      (by decide)).2 (by decide)

end Machine

end ByteMachine
