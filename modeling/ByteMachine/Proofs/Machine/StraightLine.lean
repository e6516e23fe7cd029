import ByteMachine.Proofs.Machine.Lockstep
import ByteMachine.Proofs.Machine.Run

/-!
# Programs that go straight

A program text goes straight if none of its lines can send the machine anywhere but to the next
line: it has no line `JMP`, and a line `IF` only where the image does not carry targets. Then its
instruction lines are executed once each, in order, until one of them ends the run, and where a
label stands makes no difference.

What lines have done is kept in a `Ledger`, the numbers in the registers and the observations, and
it is made by going through the lines with no machine at hand. Under fixed sizing labels do not
stand where instructions begin, so nothing here is said of labels, only of boundaries.

## Main results

* `OnLine.advance`: a line that goes on leads to the next one and does what it says.
* `Assembles.onLine_iterate_next`: so do all lines up to the first that does not go on.
* `straightLine_run`: a program that goes straight, from loading its image to the end of its run.
-/

namespace ByteMachine

/-- What instruction lines have **done**: the numbers in the registers, and the observations. -/
structure Ledger where
  values : List Int
  observations : List (UInt8 × Int)
  deriving DecidableEq, Repr

namespace Ledger

/-- The number in a register of the ledger, zero where the register does not exist. -/
def value (ledger : Ledger) (register : UInt8) : Int :=
  ledger.values.getD register.toNat 0

/-- A register of the ledger set to a number. -/
def set (ledger : Ledger) (register : UInt8) (value : Int) : Ledger :=
  { ledger with values := ledger.values.set register.toNat value }

/-- The ledger behind one more **line**. Arithmetic is modulo 256, and a line that branches does
nothing. -/
def enter (ledger : Ledger) : Written → Ledger
  | .store register value => ledger.set register value.toNat
  | .load register value => ledger.set register value.toNat
  | .add target source value =>
    ledger.set target ((ledger.value target + ledger.value source + value.toNat) % 256)
  | .sub target source value =>
    ledger.set target ((ledger.value target - ledger.value source - value.toNat) % 256)
  | .display register =>
    match ledger.values[register.toNat]? with
    | some value => { ledger with observations := ledger.observations ++ [(register, value)] }
    | none => ledger
  | _ => ledger

/-- The ledger of lines, entered one after the other, from registers that hold **zero** on. -/
def through (count : Nat) (program : List Written) : Ledger :=
  program.foldl enter ⟨List.replicate count 0, []⟩

end Ledger

namespace Written

/-- The registers that a line needs, in the order in which they are looked for. -/
def registersNeeded : Written → List UInt8
  | store register _ => [register]
  | load register _ => [register]
  | add target source _ => [target, source]
  | sub target source _ => [target, source]
  | _ => []

/-- The first register that a line needs and that does **not exist**, given how many there are. -/
def missing? (count : Nat) (written : Written) : Option UInt8 :=
  written.registersNeeded.find? fun register => count ≤ register.toNat

/-- A line that does not end the run: it is not `EXIT`, and no register is missing. -/
def goesOn (count : Nat) (written : Written) : Bool :=
  written ≠ exit && (written.missing? count).isNone

/-- A line that cannot send the machine **anywhere but on**: no `JMP`, and an `IF` only where
targets are left out. -/
def Straight (targets : Bool) : Written → Prop
  | branchIf _ _ _ => targets = false
  | jump _ => False
  | _ => True

end Written

/-- A program text **goes straight** under a profile: it has no line `JMP`, and no line `IF` if the
profile carries targets. -/
def GoesStraight (profile : Profile) (source : List Statement) : Prop :=
  ∀ tokens, .instruction Mnemonic.jump.name tokens ∉ source ∧
    (profile.encodesTargets = true → .instruction Mnemonic.branchIf.name tokens ∉ source)

/-- A machine stands **on the line** of an index: at its boundary, with one step for each line
before it, and with what those have done. -/
structure OnLine (context : Context) (program : List Written) (count index : Nat)
    (machine : Machine) : Prop where
  pc : machine.registers.pc = context.boundary index
  steps : machine.registers.steps = index
  values : machine.registers.numbers = (Ledger.through count (program.take index)).values
  observations : machine.observations.map shownNumber =
    (Ledger.through count (program.take index)).observations

/-- How a run **ends** at the line of index `last`, all lines before it having gone on: at `EXIT`;
at a line that needs a register which does not exist; or behind the last line, where the machine
halts if there is room, and otherwise has left the memory with the line before. -/
inductive LineEnd (context : Context) (program : List Written) (count size last : Nat) :
    Status → Prop
  | exit : program[last]? = some .exit → LineEnd context program count size last .halted
  | register {written : Written} {register : UInt8} : program[last]? = some written →
      written.missing? count = some register →
      LineEnd context program count size last
        (.faulted ⟨.invalidRegister register count, context.boundary last⟩)
  | behind : last = program.length → context.program.length < size →
      LineEnd context program count size last .halted
  | full : last = program.length → context.program.length = size →
      LineEnd context program count size last
        (.faulted ⟨.outOfBounds size, context.boundary (last - 1)⟩)

/-- The outcome of a run that has **ended** at the line of index `last`: the machine is stopped as
that line says, and holds what the lines before have done. -/
structure RunEnd (context : Context) (program : List Written) (count size last : Nat)
    (transition : Transition) : Prop where
  status : LineEnd context program count size last transition.machine.status
  reason : transition.reason? = transition.machine.stopReason?
  values : transition.machine.registers.numbers = (Ledger.through count (program.take last)).values
  observations : transition.machine.observations.map shownNumber =
    (Ledger.through count (program.take last)).observations

/-! ### One line -/

/-- The ledger behind the line of an index is the one before it with the line entered. -/
theorem Ledger.through_take_succ {program : List Written} {written : Written} {index : Nat}
    (there : program[index]? = some written) (count : Nat) :
    Ledger.through count (program.take (index + 1)) =
      (Ledger.through count (program.take index)).enter written := by
  rw [List.take_add_one, there, through, List.foldl_append]
  rfl

namespace Written

variable (written : Written) (targets : Bool) (byteOf : Text → UInt8)

/-- A line and its encoding need the same registers, in the same order. -/
theorem registersNeeded_encode :
    (written.encode targets byteOf).registersNeeded = written.registersNeeded := by
  cases written <;> rfl

/-- Executing the encoding leaves the numbers of the ledger with the line entered. -/
theorem numbersAfter_encode (ledger : Ledger) :
    (written.encode targets byteOf).numbersAfter ledger.values = (ledger.enter written).values := by
  cases written with
  | display register =>
      rw [Ledger.enter]
      cases ledger.values[register.toNat]? <;> rfl
  | _ => rfl

/-- Executing the encoding adds the observations of the ledger with the line entered. -/
theorem shownFrom_encode {registers : Registers} {ledger : Ledger}
    (same : registers.numbers = ledger.values) :
    ledger.observations ++ ((written.encode targets byteOf).shownFrom registers).map shownNumber =
      (ledger.enter written).observations := by
  cases written with
  | display register =>
      rw [encode, Instruction.shownFrom, Ledger.enter, ← same, Registers.numbers,
        List.getElem?_map, Registers.get?]
      cases registers.values[register.toNat]? with
      | none => exact List.append_nil _
      | some _ => rfl
  | _ => exact List.append_nil _

/-- The row of the instruction table that a line has is that of its encoding. -/
theorem mnemonic_of_encode {instruction : Instruction}
    (same : written.encode targets byteOf = instruction) :
    written.mnemonic = instruction.mnemonic := by
  rw [← same, mnemonic_encode]

/-- A line that goes straight goes on behind its bytes, whatever the registers hold. -/
theorem pcAfter_encode {written : Written} {targets : Bool} (straight : written.Straight targets)
    (byteOf : Text → UInt8) (ram : Ram) (registers : Registers) (goesOn : written ≠ .exit) :
    (written.encode targets byteOf).pcAfter ram registers =
      registers.pc + (written.encode targets byteOf).length := by
  cases written with
  | exit => exact absurd rfl goesOn
  | branchIf _ _ _ =>
      have bare : targets = false := straight
      subst bare
      rfl
  | jump _ => cases straight
  | _ => rfl

/-- A line that does not go on is `EXIT`, or it needs a register that does not exist. -/
theorem eq_exit_or_missing {written : Written} {count : Nat}
    (ends : written.goesOn count = false) :
    written = .exit ∨ ∃ register, written.missing? count = some register := by
  rw [goesOn, Bool.and_eq_false_iff] at ends
  rcases ends with exits | missing
  · exact .inl (Classical.not_not.mp (of_decide_eq_false exits))
  · rw [Option.isNone_eq_false_iff, Option.isSome_iff_exists] at missing
    exact .inr missing

end Written

/-- There is a first line that does not go on, or all lines do. The run is cut there. -/
theorem exists_last (count : Nat) (program : List Written) :
    ∃ last ≤ program.length, (∀ written ∈ program.take last, written.goesOn count = true) ∧
      (last = program.length ∨
        ∃ written, program[last]? = some written ∧ written.goesOn count = false) := by
  induction program with
  | nil => exact ⟨0, Nat.le_refl 0, nofun, .inl rfl⟩
  | cons written program ih =>
      cases goesOn : written.goesOn count with
      | false => exact ⟨0, Nat.zero_le _, nofun, .inr ⟨written, rfl, goesOn⟩⟩
      | true =>
          obtain ⟨last, inside, before, ends⟩ := ih
          refine ⟨last + 1, Nat.succ_le_succ inside, ?_, ends.imp (congrArg (· + 1)) id⟩
          rw [List.take_succ_cons, List.forall_mem_cons]
          exact ⟨goesOn, before⟩

section Line

variable {profile : Profile} {maxLabels : Int} {source : Text} {program : List Written}
  {context : Context} (assembles : Assembles profile maxLabels source program context)
  {machine : Machine} {behind count index : Nat}
  (holds : machine.ram.cells = context.program ++ List.replicate behind 0)
  (same : machine.profile = profile) (size : machine.registers.count = count)
  (stands : OnLine context program count index machine)

include assembles holds same stands

/-- A machine on a line fetches the encoding of that line, for the image is as it was loaded. -/
theorem OnLine.fetch_eq {written : Written} (there : program[index]? = some written) :
    machine.ram.fetch machine.profile machine.registers.pc =
      .ok (written.encode profile.encodesTargets context.byteOf) := by
  rw [same, stands.pc]
  exact assembles.fetch_boundary holds there

include size

/-- A line that **goes on** leads to the next one, which may lie outside the memory. -/
theorem OnLine.advance {written : Written} (there : program[index]? = some written)
    (straight : written.Straight profile.encodesTargets) (goesOn : written.goesOn count = true) :
    OnLine context program count (index + 1) machine.advanced.machine ∧
      machine.advanced.machine.status =
        if machine.ram.contains (context.boundary (index + 1)) then machine.status
        else .faulted ⟨.outOfBounds (context.boundary (index + 1)), context.boundary index⟩ := by
  obtain ⟨stays, exist⟩ := Bool.and_eq_true_iff.mp goesOn
  rw [decide_eq_true_iff] at stays
  rw [Option.isNone_iff_eq_none] at exist
  have fetched := stands.fetch_eq assembles holds same there
  have outcome := Instruction.outcome_execute machine.ram machine.registers
    (written.encode profile.encodesTargets context.byteOf)
  generalize executed : (written.encode profile.encodesTargets context.byteOf).execute machine.ram
    machine.registers = execution at outcome
  cases outcome with
  | halts exits =>
      have row := written.mnemonic_of_encode _ _ exits
      cases written <;> cases row
      exact absurd rfl stays
  | refused first =>
      rw [Written.registersNeeded_encode, size, ← Written.missing?, exist] at first
      cases first
  | astray jumps _ =>
      have row := written.mnemonic_of_encode _ _ jumps
      cases written <;> cases row
      cases straight
  | @done after report _ _ _ does =>
      have becomes := Machine.advance_of_next fetched executed
      have pc : after.pc = context.boundary (index + 1) := by
        rw [does.pc, Written.pcAfter_encode straight _ _ _ stays, stands.pc,
          assembles.boundary_succ there, Int.natCast_add]
      have ledger := Ledger.through_take_succ there count
      refine ⟨⟨?_, ?_, ?_, ?_⟩, ?_⟩
      · rw [becomes.registers_eq, ← pc]
        rfl
      · rw [becomes.registers_eq, ← stands.steps, ← does.steps]
        rfl
      · rw [becomes.registers_eq, ledger, ← Written.numbersAfter_encode, ← stands.values,
          ← does.numbers]
        rfl
      · rw [becomes.observations_eq, List.map_append, stands.observations, does.shown, ledger,
          Written.shownFrom_encode _ _ _ stands.values]
      · rw [becomes.status_eq, pc, stands.pc]

/-- A line that needs a register which does not exist ends the run, and does nothing. -/
theorem OnLine.advance_of_missing {written : Written} {register : UInt8}
    (there : program[index]? = some written) (missing : written.missing? count = some register) :
    machine.Becomes machine.registers []
      (.faulted ⟨.invalidRegister register count, context.boundary index⟩)
      machine.advanced.machine := by
  have fetched := stands.fetch_eq assembles holds same there
  have outcome := Instruction.outcome_execute machine.ram machine.registers
    (written.encode profile.encodesTargets context.byteOf)
  generalize executed : (written.encode profile.encodesTargets context.byteOf).execute machine.ram
    machine.registers = execution at outcome
  cases outcome with
  | halts exits =>
      have row := written.mnemonic_of_encode _ _ exits
      cases written <;> cases row
      cases missing
  | refused first =>
      rw [Written.registersNeeded_encode, size, ← Written.missing?, missing] at first
      cases first
      rw [← size, ← stands.pc]
      exact Machine.advance_of_invalidRegister fetched executed
  | astray jumps _ =>
      have row := written.mnemonic_of_encode _ _ jumps
      cases written <;> cases row
      cases missing
  | done _ exist _ _ =>
      rw [Written.missing?] at missing
      have needed := List.mem_of_find?_eq_some missing
      have absent := List.find?_some missing
      rw [decide_eq_true_iff] at absent
      rw [Written.registersNeeded_encode, size] at exist
      exact absurd (exist register needed) (Nat.not_lt.mpr absent)

end Line

/-! ### Whole runs -/

namespace Machine

theorem cells_iterate_load {machine : Machine} {image : List UInt8}
    (fits : image.length ≤ machine.ram.size) (steps : Nat) :
    (next^[steps] (machine.load image)).ram.cells =
      image ++ List.replicate (machine.ram.size - image.length) 0 := by
  rw [ram_iterate_next, ram_load]
  exact Ram.cells_load fits

theorem count_iterate_load (machine : Machine) (image : List UInt8) (steps : Nat) :
    (next^[steps] (machine.load image)).registers.count = machine.registers.count := by
  rw [count_iterate_next, count_load]

end Machine

section Run

variable {machine : Machine} {maxLabels maxProgramSize : Int} {source : Text}
  {program : List Written} {context : Context}

/-- The lines of a program text that goes straight go straight, each of them. -/
theorem Assembles.straight (assembles : Assembles machine.profile maxLabels source program context)
    (straight : GoesStraight machine.profile (statements source)) {written : Written}
    (inside : written ∈ program) : written.Straight machine.profile.encodesTargets := by
  obtain ⟨index, short, rfl⟩ := List.getElem_of_mem inside
  have shorter := assembles.length_eq.symm ▸ short
  obtain ⟨tokens, writes, -⟩ := assembles.writes.get shorter short
  have line := (List.mem_filter.mp (List.getElem_mem shorter)).1
  have stated := statement_mem_statements line
  rw [List.get_eq_getElem] at writes
  rw [writes, List.get_eq_getElem] at stated
  generalize program[index] = written at stated ⊢
  cases written with
  | jump _ => exact absurd stated (straight tokens).1
  | branchIf _ _ _ =>
      exact Bool.eq_false_iff.mpr fun carries => absurd stated ((straight tokens).2 carries)
  | _ => trivial

theorem Assembles.length_le {profile : Profile}
    (assembles : Assembles profile maxLabels source program context) :
    program.length ≤ context.program.length := by
  rw [assembles.length_program_eq]
  clear assembles
  induction program with
  | nil => exact Nat.le_refl 0
  | cons written program ih =>
      have length := written.mnemonic.length_eq profile
      rw [codeSize, List.length_cons]
      omega

variable (assembles : Assembles machine.profile maxLabels source program context)
  (straight : GoesStraight machine.profile (statements source)) (positive : 0 < machine.ram.size)
  (fits : context.program.length ≤ machine.ram.size)

include assembles

/-- A machine that has just loaded its image stands on the first line, with an empty ledger. -/
theorem Assembles.onLine_load :
    OnLine context program machine.registers.count 0 (machine.load context.program) where
  pc := by
    rw [assembles.boundary_eq]
    rfl
  steps := rfl
  values := List.map_replicate ..
  observations := rfl

include straight positive fits

/-- **All lines** up to one that does not go on are executed, one after the other. The last of them
may leave the memory. -/
theorem Assembles.onLine_iterate_next {last i : Nat} (inside : last ≤ program.length)
    (before : ∀ written ∈ program.take last, written.goesOn machine.registers.count = true)
    (early : i ≤ last) :
    OnLine context program machine.registers.count i
        (Machine.next^[i] (machine.load context.program)) ∧
      (Machine.next^[i] (machine.load context.program)).status =
        if (machine.ram.load context.program).contains (context.boundary i) then .running
        else .faulted ⟨.outOfBounds (context.boundary i), context.boundary (i - 1)⟩ := by
  induction i with
  | zero =>
      have start : (machine.ram.load context.program).contains (context.boundary 0) = true := by
        rw [assembles.boundary_eq, Ram.contains_natCast, Ram.size_load]
        exact positive
      rw [if_pos start]
      exact ⟨assembles.onLine_load, rfl⟩
  | succ i ih =>
      obtain ⟨stands, status⟩ := ih (Nat.le_of_succ_le early)
      have short : i < program.length := Nat.lt_of_lt_of_le early inside
      have there := List.getElem?_eq_getElem short
      have goesOn := before program[i] (List.mem_take_iff_getElem.mpr ⟨i, by omega, rfl⟩)
      have here : (machine.ram.load context.program).contains (context.boundary i) = true := by
        refine (assembles.contains_boundary_iff ?_).mpr (.inl short)
        rw [Ram.size_load]
        exact fits
      rw [if_pos here] at status
      have next := stands.advance assembles (Machine.cells_iterate_load fits i)
        (Machine.profile_iterate_next ..) (Machine.count_iterate_load ..) there
        (assembles.straight straight (List.getElem_mem short)) goesOn
      have memory : (Machine.next^[i] (machine.load context.program)).ram =
          machine.ram.load context.program := by
        rw [Machine.ram_iterate_next, Machine.ram_load]
      rw [memory, status] at next
      rw [Function.iterate_succ_apply', Machine.next_of_running status]
      exact next

/-- A machine on a line before the last runs, and so it does on the last if that lies in the
memory. -/
theorem Assembles.status_iterate_next {last i : Nat} (inside : last ≤ program.length)
    (before : ∀ written ∈ program.take last, written.goesOn machine.registers.count = true)
    (early : i ≤ last) (there : i < program.length ∨ context.program.length < machine.ram.size) :
    (Machine.next^[i] (machine.load context.program)).status = .running := by
  obtain ⟨-, status⟩ :=
    assembles.onLine_iterate_next straight positive fits inside before early
  rw [if_pos ((assembles.contains_boundary_iff ((Ram.size_load ..).symm ▸ fits)).mpr
    ((Ram.size_load ..).symm ▸ there))] at status
  exact status

/-- Every line that leads to one in the memory is passed, so the run gets to the first that does not
go on. -/
theorem Assembles.passes_iterate_next {last i : Nat} (inside : last ≤ program.length)
    (before : ∀ written ∈ program.take last, written.goesOn machine.registers.count = true)
    (early : i < last)
    (there : i + 1 < program.length ∨ context.program.length < machine.ram.size) :
    (Machine.next^[i] (machine.load context.program)).Passes := by
  have runs := assembles.status_iterate_next straight positive fits inside before
    (Nat.le_of_lt early) (there.imp_left Nat.lt_of_succ_lt)
  have still := assembles.status_iterate_next straight positive fits inside before early there
  rw [Function.iterate_succ_apply'] at still
  have ready := (machine.ready_load context.program).ready_iterate_next i
  exact Machine.passes_iff.mpr ⟨runs, ready.names runs, still⟩

/-- A run ends at a line whose step stops the machine and changes no register. -/
theorem Assembles.exists_runEnd_of_becomes {last : Nat} (inside : last ≤ program.length)
    (before : ∀ written ∈ program.take last, written.goesOn machine.registers.count = true)
    (there : last < program.length ∨ context.program.length < machine.ram.size)
    {registers : Registers} {status : Status} {reason : StopReason}
    (becomes : (Machine.next^[last] (machine.load context.program)).Becomes registers [] status
      (Machine.next^[last] (machine.load context.program)).advanced.machine)
    (kept : registers.numbers =
      (Machine.next^[last] (machine.load context.program)).registers.numbers)
    (stopped : status.stopReason? = some reason)
    (ends : LineEnd context program machine.registers.count machine.ram.size last status) :
    ∃ transition, (∀ limit, program.length < limit →
        (machine.load context.program).runFor limit = .ok transition) ∧
      RunEnd context program machine.registers.count machine.ram.size last transition := by
  obtain ⟨stands, -⟩ :=
    assembles.onLine_iterate_next straight positive fits inside before (Nat.le_refl last)
  have runs := assembles.status_iterate_next straight positive fits inside before
    (Nat.le_refl last) there
  have passes (i : Nat) (early : i < last) :
      (Machine.next^[i] (machine.load context.program)).Passes :=
    assembles.passes_iterate_next straight positive fits inside before early
      (there.imp_left (by omega))
  rw [← Machine.next_of_running runs, ← Function.iterate_succ_apply' Machine.next] at becomes
  rw [← becomes.status_eq, ← Machine.stopReason?_eq] at stopped
  obtain ⟨transition, made, final, told⟩ :=
    Machine.exists_transition_of_stop (machine.ready_load context.program) passes stopped
  refine ⟨transition, fun limit long => made limit (by omega), ?_, told, ?_, ?_⟩
  · rw [final, becomes.status_eq]
    exact ends
  · rw [final, becomes.registers_eq, kept, stands.values]
  · rw [final, becomes.observations_eq, List.append_nil, stands.observations]

/-- A run that leaves the memory behind the last line ends in a fault there, with the effects of all
lines. -/
theorem Assembles.exists_runEnd_of_full
    (goOn : ∀ written ∈ program.take program.length,
      written.goesOn machine.registers.count = true)
    (full : context.program.length = machine.ram.size) :
    ∃ transition, (∀ limit, program.length < limit →
        (machine.load context.program).runFor limit = .ok transition) ∧
      RunEnd context program machine.registers.count machine.ram.size program.length
        transition := by
  have nonempty : program.length ≠ 0 := by
    intro empty
    have image := assembles.boundary_of_length_le (Nat.le_of_eq empty)
    rw [assembles.boundary_eq] at image
    exact absurd (image.trans full) (Nat.ne_of_lt positive)
  obtain ⟨previous, last⟩ := Nat.exists_eq_succ_of_ne_zero nonempty
  obtain ⟨stands, status⟩ := assembles.onLine_iterate_next straight positive fits
    (Nat.le_refl _) goOn (Nat.le_refl _)
  have outside : ¬ (machine.ram.load context.program).contains
      (context.boundary program.length) = true := by
    rw [assembles.contains_boundary_iff ((Ram.size_load ..).symm ▸ fits), Ram.size_load]
    omega
  rw [if_neg outside, assembles.boundary_of_length_le (Nat.le_refl _), full] at status
  have passes (i : Nat) (early : i < previous) :
      (Machine.next^[i] (machine.load context.program)).Passes :=
    assembles.passes_iterate_next straight positive fits (Nat.le_refl _) goOn (by omega)
      (.inl (by omega))
  rw [last] at stands status
  have stopped : (Machine.next^[previous + 1] (machine.load context.program)).stopReason? =
      some .fault := by
    rw [Machine.stopReason?_eq, status]
    rfl
  obtain ⟨transition, made, final, told⟩ :=
    Machine.exists_transition_of_stop (machine.ready_load context.program) passes stopped
  refine ⟨transition, fun limit long => made limit (by omega), ?_, told, ?_, ?_⟩
  · rw [final, status, ← last]
    exact .full rfl full
  · rw [final, last, stands.values]
  · rw [final, last, stands.observations]

/-- The run of a program that goes straight ends at the first line that does not go on, or
behind the last one. -/
theorem Assembles.exists_runEnd {last : Nat} (inside : last ≤ program.length)
    (before : ∀ written ∈ program.take last, written.goesOn machine.registers.count = true)
    (ends : last = program.length ∨ ∃ written, program[last]? = some written ∧
      written.goesOn machine.registers.count = false) :
    ∃ transition, (∀ limit, program.length < limit →
        (machine.load context.program).runFor limit = .ok transition) ∧
      RunEnd context program machine.registers.count machine.ram.size last transition := by
  obtain ⟨stands, -⟩ :=
    assembles.onLine_iterate_next straight positive fits inside before (Nat.le_refl last)
  have holds := Machine.cells_iterate_load fits last
  have profile : (Machine.next^[last] (machine.load context.program)).profile = machine.profile :=
    Machine.profile_iterate_next ..
  have size := machine.count_iterate_load context.program last
  rcases ends with rfl | ⟨written, there, ends⟩
  · rcases Nat.lt_or_eq_of_le fits with room | full
    · have left : context.program.length <
          (Machine.next^[program.length] (machine.load context.program)).ram.size := by
        rw [Machine.ram_iterate_next, Machine.ram_load, Ram.size_load]
        exact room
      have fetched := Ram.fetch_behind machine.profile holds left
      rw [← assembles.boundary_of_length_le (Nat.le_refl _), ← stands.pc, ← profile] at fetched
      exact assembles.exists_runEnd_of_becomes straight positive fits inside before (.inr room)
        (Machine.advance_of_halt fetched rfl) rfl rfl (.behind rfl room)
    · exact assembles.exists_runEnd_of_full straight positive fits before full
  · have short := (List.getElem?_eq_some_iff.mp there).1
    rcases Written.eq_exit_or_missing ends with rfl | ⟨register, missing⟩
    · have fetched := stands.fetch_eq assembles holds profile there
      exact assembles.exists_runEnd_of_becomes straight positive fits inside before (.inl short)
        (Machine.advance_of_halt fetched rfl) rfl rfl (.exit there)
    · exact assembles.exists_runEnd_of_becomes straight positive fits inside before (.inl short)
        (stands.advance_of_missing assembles holds profile size there missing) rfl rfl
        (.register there missing)

end Run

/-- **A program that goes straight** executes its lines once each, in order, and its run ends. After
as many steps as there are lines before it, the machine stands on a line with what those have done,
until the first line that does not go on. The run ends there, within one step more than there are
instruction lines: it halts at `EXIT`, it faults where a register does not exist, and behind the
last line it halts if the memory has room and has left the memory otherwise. -/
theorem straightLine_run (machine : Machine) (text : Text) (maxLabels maxProgramSize : Int)
    {context : Context} (straight : GoesStraight machine.profile (statements text))
    (positive : 0 < machine.ram.size)
    (assembled : (assemble machine.profile text maxLabels maxProgramSize).result = .ok context)
    (fits : context.program.length ≤ machine.ram.size) :
    ∃ lines program, readSource text = .ok lines ∧
      List.Forall₂ (fun line => line.statement.Writes) (instructionLines lines) program ∧
      ∃ last ≤ program.length,
        (∀ written ∈ program.take last, written.goesOn machine.registers.count = true) ∧
        (∀ i ≤ last, OnLine context program machine.registers.count i
          ((machine.load context.program).session (List.replicate i .step)).1) ∧
        ∃ transition,
          (∀ limit, program.length < limit →
            (machine.load context.program).runFor limit = .ok transition) ∧
          (machine.load context.program).run = .ok transition ∧
          RunEnd context program machine.registers.count machine.ram.size last transition := by
  obtain ⟨program, assembles⟩ := exists_assembles assembled
  obtain ⟨last, inside, before, ends⟩ := exists_last machine.registers.count program
  obtain ⟨transition, made, ended⟩ :=
    assembles.exists_runEnd straight positive fits inside before ends
  refine ⟨sourceLines text, program, assembles.readSource_eq, assembles.writes, last, inside,
    before, fun i early => ?_, transition, made, made _ ?_, ended⟩
  · rw [Machine.session_replicate_step]
    exact (assembles.onLine_iterate_next straight positive fits inside before early).1
  · -- A run without a limit has one that is larger than the memory.
    have states : machine.ram.size ≤ (machine.load context.program).stateCount := by
      rw [Machine.stateCount, Machine.ram_load, Ram.size_load]
      exact Nat.le_mul_of_pos_right _ (Nat.pow_pos (Nat.succ_pos 255))
    have bytes := assembles.length_le
    omega

/-- A branch that compares has no effect under fixed sizing, though it names a label that stands
nowhere in the image. -/
theorem exists_straightLine_branchIf :
    let text := "STORE R1, 255\nADD R1, R1, 2\nIF R1, 0, END\nDPR R1\nEND:\nDPR R9".toList
    let machine := Machine.zeroed .classic 4 14
    ∃ context, (assemble .classic text 50 256).result = .ok context ∧
      context.program.length = machine.ram.size ∧
      ∃ lines program, readSource text = .ok lines ∧
        List.Forall₂ (fun line => line.statement.Writes) (instructionLines lines) program ∧
        ∃ last ≤ program.length,
          (∀ written ∈ program.take last, written.goesOn machine.registers.count = true) ∧
          (∀ i ≤ last, OnLine context program machine.registers.count i
            ((machine.load context.program).session (List.replicate i .step)).1) ∧
          ∃ transition,
            (∀ limit, program.length < limit →
              (machine.load context.program).runFor limit = .ok transition) ∧
            (machine.load context.program).run = .ok transition ∧
            RunEnd context program machine.registers.count machine.ram.size last transition := by
  intro text machine
  have worked : (assemble .classic text 50 256).result.toOption.any
      (fun context => context.program.length = 14) = true := by decide +kernel
  obtain ⟨context, assembled, length⟩ := exists_context_of_any worked
  have size : machine.ram.size = 14 := List.length_replicate
  have full : context.program.length = machine.ram.size :=
    (of_decide_eq_true length).trans size.symm
  have jumpless : ∀ statement ∈ statements text,
      statement.mnemonic? ≠ some Mnemonic.jump.name := by decide +kernel
  have straight : GoesStraight .classic (statements text) :=
    fun tokens => ⟨fun inside => jumpless _ inside rfl, nofun⟩
  exact ⟨context, assembled, full, straightLine_run machine text 50 256 straight
    (size ▸ Nat.succ_pos 13) assembled (Nat.le_of_eq full)⟩

end ByteMachine
