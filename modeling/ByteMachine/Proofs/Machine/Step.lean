import ByteMachine.Machine.Run
import ByteMachine.Proofs.Machine.Fetch

/-!
# Steps of the machine

One step by what is fetched and by what comes of executing it, and a number of steps made one
after the other. What a step writes to the trace and to its surroundings concerns neither the
registers nor the observations, so it is left out here: the laws are about the machine that a
step leaves.

A step of a machine that runs fails in one case, and leaves everything as it is: the program counter
is outside the memory, and it is too long to be named in the message of the fault. `advanced` is
what a step leaves in either case, so that the laws about one step need not tell the two apart.

## Main results

* `advance_of_fetch_error`, `advance_of_halt`, `advance_of_invalidRegister`,
  `advance_of_noTarget`, `advance_of_next`: one step, case by case.
* `reason?_advanced`, `printed_advanced`: what it tells besides, read off the machine that it
  leaves.
* `fault_advanced`: state and fault go together.
* `step_of_running`, `step_of_stopped`: when there is a step to make.
-/

namespace ByteMachine

/-- What a report adds to the **observations** of a machine: one register with its value, or
nothing. -/
def Report.shown : Report → List (UInt8 × UInt8)
  | .observed register value => [(register, value)]
  | _ => []

/-- The **lines** that are printed for observations, one line for each with the register and its
value. -/
def linesOf (shown : List (UInt8 × UInt8)) : Text :=
  shown.flatMap fun entry => (Report.observed entry.1 entry.2).printed

theorem Report.printed_effects (report : Report) :
    report.effects.printed = linesOf report.shown := by
  cases report with
  | observed register value => exact (List.append_nil _).symm
  | silent => rfl
  | noRegister register => rfl

namespace Machine

/-- A number of **steps**, one after the other. It fails if one of them does, as in a machine
without a program. -/
def stepTimes : Nat → Machine → Except StepError Machine
  | 0, machine => .ok machine
  | steps + 1, machine =>
    match machine.step with
    | .error error => .error error
    | .ok transition => transition.machine.stepTimes steps

/-- What a step of a machine that runs **leaves**: a step that fails leaves the machine as it is. -/
def advanced (machine : Machine) : Transition :=
  machine.advance.toOption.getD ⟨machine, none, {}⟩

/-- The memory of a machine **names** its program counter, as it does whenever that lies in it. -/
def NamesPc (machine : Machine) : Prop :=
  machine.ram.Names machine.registers.pc

/-! ### What a machine becomes -/

/-- What a machine **becomes**, its trace left out: its registers, the observations that it adds,
and its status. Profile and memory stay. -/
structure Becomes (before : Machine) (registers : Registers) (shown : List (UInt8 × UInt8))
    (status : Status) (after : Machine) : Prop where
  profile_eq : after.profile = before.profile
  ram_eq : after.ram = before.ram
  registers_eq : after.registers = registers
  observations_eq : after.observations = before.observations ++ shown
  status_eq : after.status = status

variable {machine middle after : Machine} {first second : Registers}
  {early late : List (UInt8 × UInt8)} {status final : Status}

/-- Changes that follow each other are one change, with the observations of both. -/
theorem Becomes.trans (one : machine.Becomes first early status middle)
    (other : middle.Becomes second late final after) :
    machine.Becomes second (early ++ late) final after where
  profile_eq := other.profile_eq.trans one.profile_eq
  ram_eq := other.ram_eq.trans one.ram_eq
  registers_eq := other.registers_eq
  observations_eq := by
    rw [other.observations_eq, one.observations_eq, List.append_assoc]
  status_eq := other.status_eq

theorem becomes_self (machine : Machine) :
    machine.Becomes machine.registers [] machine.status machine :=
  ⟨rfl, rfl, rfl, (List.append_nil _).symm, rfl⟩

/-- The registers can be set to others, which leaves the rest of the machine. -/
theorem becomes_set (machine : Machine) (registers : Registers) :
    machine.Becomes registers [] machine.status { machine with registers } :=
  ⟨rfl, rfl, rfl, (List.append_nil _).symm, rfl⟩

theorem becomes_halted (machine : Machine) (registers : Registers) :
    machine.Becomes registers [] .halted { machine with registers, state := .halted } :=
  ⟨rfl, rfl, rfl, (List.append_nil _).symm, rfl⟩

theorem becomes_record (machine : Machine) (entry : TraceEntry) :
    machine.Becomes machine.registers [] machine.status (machine.record entry) := by
  rw [record]
  split
  · exact ⟨rfl, rfl, rfl, (List.append_nil _).symm, rfl⟩
  · exact ⟨rfl, rfl, rfl, (List.append_nil _).symm, rfl⟩

theorem becomes_observe (machine : Machine) (report : Report) :
    machine.Becomes machine.registers report.shown machine.status (machine.observe report) := by
  cases report with
  | observed register value => exact ⟨rfl, rfl, rfl, List.reverse_cons, rfl⟩
  | silent => exact ⟨rfl, rfl, rfl, (List.append_nil _).symm, rfl⟩
  | noRegister register => exact ⟨rfl, rfl, rfl, (List.append_nil _).symm, rfl⟩

/-- A machine that is stopped with a fault keeps its registers, and what it has shown. -/
theorem becomes_stopWith (machine : Machine) (pc : Int) (cause : FaultCause)
    (effects : Effects) :
    machine.Becomes machine.registers [] (.faulted ⟨cause, pc⟩)
      (machine.stopWith pc cause effects).machine := by
  have recorded := machine.becomes_record (.fault cause)
  exact ⟨recorded.profile_eq, recorded.ram_eq, recorded.registers_eq, recorded.observations_eq,
    rfl⟩

/-! ### One step -/

variable {instruction : Instruction}

/-- Whether the program counter is named depends on it and the memory alone. -/
theorem namesPc_congr (ram : machine.ram = after.ram)
    (pc : machine.registers.pc = after.registers.pc) : machine.NamesPc ↔ after.NamesPc := by
  rw [NamesPc, NamesPc, ram, pc]

theorem advanced_of_error {error : NumeralTooLong} (failed : machine.advance = .error error) :
    machine.advanced = ⟨machine, none, {}⟩ := by
  rw [advanced, failed]
  rfl

/-- Executing does not depend on the trace, which is written before it. -/
theorem Becomes.execute_eq {shown : List (UInt8 × UInt8)}
    (becomes : machine.Becomes machine.registers shown status after) (instruction : Instruction) :
    instruction.execute after.ram after.registers =
      instruction.execute machine.ram machine.registers := by
  rw [becomes.ram_eq, becomes.registers_eq]

/-- A step that **fetches** nothing changes the status alone, to a fault that the error causes at
the program counter. -/
theorem advance_of_fetch_error {error : FetchError} {cause : FaultCause}
    (missed : machine.ram.fetch machine.profile machine.registers.pc = .error error)
    (causes : FaultCause.ofFetch machine.registers.pc error = .ok cause) :
    machine.Becomes machine.registers [] (.faulted ⟨cause, machine.registers.pc⟩)
      machine.advanced.machine := by
  simp only [advanced, advance, missed, causes]
  exact becomes_stopWith machine _ _ _

/-- A step that **halts** counts, and changes nothing else but the status. The program counter stays
on the instruction. -/
theorem advance_of_halt
    (fetched : machine.ram.fetch machine.profile machine.registers.pc = .ok instruction)
    (executed : instruction.execute machine.ram machine.registers = .halt) :
    machine.Becomes (countStep machine.registers) [] .halted machine.advanced.machine := by
  have recorded := machine.becomes_record
    (.instruction machine.registers.pc instruction machine.registers)
  simp only [advanced, advance, fetched]
  generalize machine.record _ = middle at recorded ⊢
  rw [← recorded.execute_eq] at executed
  simp only [executed]
  rw [← recorded.registers_eq]
  exact recorded.trans (becomes_halted middle _)

/-- A step that needs a **register** which does not exist changes the status alone. It does not
count, and it writes to no other register. -/
theorem advance_of_invalidRegister {register : UInt8}
    (fetched : machine.ram.fetch machine.profile machine.registers.pc = .ok instruction)
    (executed : instruction.execute machine.ram machine.registers = .invalidRegister register) :
    machine.Becomes machine.registers []
      (.faulted ⟨.invalidRegister register machine.registers.count, machine.registers.pc⟩)
      machine.advanced.machine := by
  have recorded := machine.becomes_record
    (.instruction machine.registers.pc instruction machine.registers)
  simp only [advanced, advance, fetched]
  generalize machine.record _ = middle at recorded ⊢
  rw [← recorded.execute_eq] at executed
  simp only [executed]
  rw [← recorded.registers_eq]
  exact recorded.trans (becomes_stopWith middle _ _ _)

/-- A step that finds no **target** changes the status alone. The target was to be read behind the
opcode, where the memory ends. -/
theorem advance_of_noTarget {error : AccessError} {named : AddressError}
    (fetched : machine.ram.fetch machine.profile machine.registers.pc = .ok instruction)
    (executed : instruction.execute machine.ram machine.registers = .noTarget error)
    (names : error.named = .ok named) :
    machine.Becomes machine.registers [] (.faulted ⟨.noTarget named, machine.registers.pc⟩)
      machine.advanced.machine := by
  have recorded := machine.becomes_record
    (.instruction machine.registers.pc instruction machine.registers)
  simp only [advanced, advance, fetched]
  generalize machine.record _ = middle at recorded ⊢
  rw [← recorded.execute_eq] at executed
  simp only [executed, names]
  rw [← recorded.registers_eq]
  exact recorded.trans (becomes_stopWith middle _ _ _)

/-- A step that is **done** leaves the program counter where the instruction has put it, which is
a fault outside the memory. -/
theorem advance_of_next {registers : Registers} {report : Report}
    (fetched : machine.ram.fetch machine.profile machine.registers.pc = .ok instruction)
    (executed : instruction.execute machine.ram machine.registers = .next registers report) :
    machine.Becomes (countStep registers) report.shown
      (if machine.ram.contains registers.pc then machine.status
        else .faulted ⟨.outOfBounds registers.pc, machine.registers.pc⟩)
      machine.advanced.machine := by
  have recorded := machine.becomes_record
    (.instruction machine.registers.pc instruction machine.registers)
  simp only [advanced, advance, fetched]
  generalize machine.record _ = middle at recorded ⊢
  rw [← recorded.execute_eq] at executed
  simp only [executed]
  have observed := recorded.trans (becomes_observe middle report)
  generalize middle.observe report = seen at observed ⊢
  have moved := observed.trans (becomes_set seen (countStep registers))
  rw [List.nil_append, List.append_nil] at moved
  have same : seen.ram.contains registers.pc = machine.ram.contains registers.pc := by
    rw [observed.ram_eq]
  by_cases inside : machine.ram.contains registers.pc = true
  · rw [if_pos inside, if_pos (same.trans inside), ← recorded.status_eq, ← observed.status_eq]
    exact moved
  · have stopped := moved.trans (becomes_stopWith _ machine.registers.pc
      (.outOfBounds registers.pc) report.effects)
    rw [List.append_nil] at stopped
    rw [if_neg inside, if_neg (same ▸ inside)]
    exact stopped

@[simp] theorem ram_record (machine : Machine) (entry : TraceEntry) :
    (machine.record entry).ram = machine.ram :=
  (machine.becomes_record entry).ram_eq

@[simp] theorem registers_record (machine : Machine) (entry : TraceEntry) :
    (machine.record entry).registers = machine.registers :=
  (machine.becomes_record entry).registers_eq

theorem state_status (machine : Machine) : machine.status.state = machine.state := by
  rw [status]
  cases machine.state <;> rfl

theorem status_eq_idle_iff : machine.status = .idle ↔ machine.state = .idle := by
  rw [status]
  cases machine.state <;> simp

theorem status_eq_running_iff : machine.status = .running ↔ machine.state = .running := by
  rw [status]
  cases machine.state <;> simp

theorem stopReason?_eq (machine : Machine) : machine.stopReason? = machine.status.stopReason? := by
  rw [stopReason?, Status.stopReason?, state_status]

theorem stopReason?_of_running (runs : machine.status = .running) : machine.stopReason? = none := by
  rw [stopReason?_eq, runs]
  rfl

/-- A step of a machine that runs gives the **reason** that the machine has afterwards. So the
answer of a step can be read off the machine. -/
theorem reason?_advanced (runs : machine.status = .running) :
    machine.advanced.reason? = machine.advanced.machine.stopReason? := by
  have stays := (stopReason?_of_running runs).symm
  cases fetched : machine.ram.fetch machine.profile machine.registers.pc with
  | error error =>
      simp only [advanced, advance, fetched]
      cases FaultCause.ofFetch machine.registers.pc error with
      | error tooLong => exact stays
      | ok cause => rfl
  | ok instruction =>
      simp only [advanced, advance, fetched]
      split
      · rfl
      · rfl
      · rename_i error _
        cases error with
        | outside named => rfl
        | unnamed tooLong => exact stays
      · rename_i registers report _
        split
        · have observed := (machine.becomes_record
            (.instruction machine.registers.pc instruction machine.registers)).trans
              (becomes_observe _ report)
          have same := observed.status_eq
          rw [(machine.becomes_record _).status_eq, runs] at same
          exact (stopReason?_of_running same).symm
        · rfl

/-- A step keeps state and fault **together**: the field of the fault is filled in the step that
leaves the state of a fault, and left alone by every other. -/
theorem fault_advanced (runs : machine.status = .running) :
    machine.advanced.machine.state ≠ .faulted ∧
        machine.advanced.machine.fault = machine.fault ∨
      machine.advanced.machine.state = .faulted ∧ machine.advanced.machine.fault ≠ none := by
  have state := status_eq_running_iff.mp runs
  have stays : machine.state ≠ .faulted ∧ machine.fault = machine.fault :=
    ⟨by rw [state]; exact nofun, rfl⟩
  have recorded (entry : TraceEntry) :
      (machine.record entry).state = machine.state ∧
        (machine.record entry).fault = machine.fault := by
    rw [record]
    split <;> exact ⟨rfl, rfl⟩
  cases fetched : machine.ram.fetch machine.profile machine.registers.pc with
  | error error =>
      simp only [advanced, advance, fetched]
      cases FaultCause.ofFetch machine.registers.pc error with
      | error tooLong => exact .inl stays
      | ok cause => exact .inr ⟨rfl, nofun⟩
  | ok instruction =>
      simp only [advanced, advance, fetched]
      split
      · exact .inl ⟨nofun, (recorded _).2⟩
      · exact .inr ⟨rfl, nofun⟩
      · rename_i error _
        cases error with
        | outside named => exact .inr ⟨rfl, nofun⟩
        | unnamed tooLong => exact .inl stays
      · rename_i registers report _
        split
        · cases report <;> exact .inl ⟨(recorded _).1 ▸ stays.1, (recorded _).2⟩
        · exact .inr ⟨rfl, nofun⟩

/-- The fault in the status that a step leaves is the one in the field, with the state set to
match. -/
theorem fault_advanced_eq {fault : Fault} (runs : machine.status = .running)
    (faulted : machine.advanced.machine.status = .faulted fault) :
    machine.advanced.machine.state = .faulted ∧ machine.advanced.machine.fault = some fault := by
  have state : machine.advanced.machine.state = .faulted := by
    rw [← state_status, faulted]
    rfl
  rcases fault_advanced runs with ⟨other, -⟩ | ⟨-, filled⟩
  · exact absurd state other
  · obtain ⟨kept, kept_eq⟩ := Option.ne_none_iff_exists'.mp filled
    rw [status, state, kept_eq] at faulted
    cases faulted
    exact ⟨state, kept_eq⟩

theorem printed_stopWith (machine : Machine) (pc : Int) (cause : FaultCause) (effects : Effects) :
    (machine.stopWith pc cause effects).effects.printed = effects.printed :=
  List.append_nil _

/-- A step **prints** a line for each observation that it adds, and nothing else. The cases are
those of the step itself. -/
theorem printed_advanced {registers : Registers} {shown : List (UInt8 × UInt8)}
    (becomes : machine.Becomes registers shown status machine.advanced.machine) :
    machine.advanced.effects.printed = linesOf shown := by
  have added {other : Registers} {late : List (UInt8 × UInt8)} {final : Status}
      (same : machine.Becomes other late final machine.advanced.machine) : shown = late :=
    List.append_cancel_left (becomes.observations_eq.symm.trans same.observations_eq)
  have stays (failed : machine.advance = .error {}) :
      machine.advanced.effects.printed = linesOf shown := by
    rw [advanced_of_error failed] at added ⊢
    rw [added machine.becomes_self]
    rfl
  cases fetched : machine.ram.fetch machine.profile machine.registers.pc with
  | error error =>
      cases causes : FaultCause.ofFetch machine.registers.pc error with
      | error tooLong =>
          refine stays ?_
          simp only [advance, fetched, causes]
          rfl
      | ok cause =>
          rw [added (advance_of_fetch_error fetched causes)]
          simp only [advanced, advance, fetched, causes]
          exact printed_stopWith ..
  | ok instruction =>
      cases executed : instruction.execute machine.ram machine.registers with
      | halt =>
          rw [added (advance_of_halt fetched executed)]
          simp only [advanced, advance, fetched, ram_record, registers_record, executed]
          rfl
      | invalidRegister register =>
          rw [added (advance_of_invalidRegister fetched executed)]
          simp only [advanced, advance, fetched, ram_record, registers_record, executed]
          exact printed_stopWith ..
      | noTarget error =>
          cases error with
          | unnamed tooLong =>
              refine stays ?_
              simp only [advance, fetched, ram_record, registers_record, executed]
              rfl
          | outside named =>
              rw [added (advance_of_noTarget fetched executed rfl)]
              simp only [advanced, advance, fetched, ram_record, registers_record, executed]
              exact printed_stopWith ..
      | next registers report =>
          rw [added (advance_of_next fetched executed)]
          simp only [advanced, advance, fetched, ram_record, registers_record, executed]
          split
          · exact report.printed_effects
          · exact (printed_stopWith ..).trans report.printed_effects

/-- A machine that runs makes a step, if that does not fail for want of a numeral. -/
theorem step_of_running (runs : machine.status = .running) :
    machine.step = machine.advance.mapError .unnamed := by
  rw [step, status_eq_running_iff.mp runs]

/-- A machine that has stopped stays as it is, and gives its reason again. -/
theorem step_of_stopped (loaded : machine.status ≠ .idle) (stopped : machine.status ≠ .running) :
    machine.step = .ok ⟨machine, machine.stopReason?, {}⟩ := by
  rw [step]
  cases state : machine.state with
  | idle => exact absurd (status_eq_idle_iff.mpr state) loaded
  | running => exact absurd (status_eq_running_iff.mpr state) stopped
  | _ => rfl

end Machine

end ByteMachine
