import ByteMachine.Proofs.Machine.Completion

/-!
# The trace records what was executed

A machine that traces writes down an instruction when it has been fetched, before it is executed,
and a fault when it stops with one. The count of steps goes up when an instruction is done. So the
trace and the count tell two stories of a run, and they differ where an instruction is written down
and then breaks off: it needs a register that does not exist, or it is a jump without its target and
there is no byte behind it.

That can happen once only, since a machine that has broken off stays where it is. A fetch that fails
and an instruction that leads out of the memory are faults as well, but the first of them writes no
instruction down, and the second has been done.

## Main results

* `writes_next`: what one step writes down.
* `writes_iterate_next`: what is written down all through a run.
* `length_notes`: how many instructions were written down, by the count of steps.
* `trace_records_executed`: the lines of a trace, from the load on.
-/

namespace ByteMachine.Machine

/-! ### What is written down -/

/-- The instruction that a machine which runs **meets**, if there is one. A trace has a line for it,
also where it is not executed in full. -/
def met? (machine : Machine) : Option Instruction :=
  if machine.status = .running then
    (machine.ram.fetch machine.profile machine.registers.pc).toOption
  else none

/-- What a step **notes** in front of its execution: the instruction that is met, with its address
and the registers as they are. -/
def note? (machine : Machine) : Option TraceEntry :=
  machine.met?.map fun instruction =>
    .instruction machine.registers.pc instruction machine.registers

/-- The entry for the **fault** that a machine has stopped with, and none for any other status. -/
def faultEntries (status : Status) : List TraceEntry :=
  status.fault?.toList.map fun fault => .fault fault.cause

/-- An instruction is met and **breaks off**: a register that it needs does not exist, or it is a
jump without its target and no byte of the memory is behind it. -/
inductive BreaksOff (machine : Machine) : Prop
  | register {instruction : Instruction} {register : UInt8} : machine.status = .running →
      machine.Meets instruction → register ∈ instruction.registersNeeded →
      machine.registers.count ≤ register.toNat → machine.BreaksOff
  | target : machine.status = .running → machine.Meets (.jump none) →
      ¬ machine.ram.contains (machine.registers.pc + 1) = true → machine.BreaksOff

/-- A machine that traces **writes** entries behind those that it has, and goes on tracing. -/
structure Writes (before : Machine) (entries : List TraceEntry) (after : Machine) : Prop where
  tracing : after.tracing = true
  traceEntries_eq : after.traceEntries = before.traceEntries ++ entries

variable {machine middle after : Machine} {instruction : Instruction}

/-! ### One step -/

theorem met?_eq_some_iff :
    machine.met? = some instruction ↔ machine.status = .running ∧ machine.Meets instruction := by
  have fetches : machine.Meets instruction ↔
      machine.ram.fetch machine.profile machine.registers.pc = .ok instruction :=
    Ram.fetch_eq_ok_iff.symm
  rw [met?, fetches]
  split
  next runs =>
    rw [and_iff_right runs]
    cases machine.ram.fetch machine.profile machine.registers.pc with
    | error error => exact iff_of_false nofun nofun
    | ok found => exact ⟨fun same => congrArg _ (Option.some.inj same),
        fun same => congrArg _ (Except.ok.inj same)⟩
  next stands => exact iff_of_false nofun fun both => stands both.1

theorem note?_of_not_running (stands : machine.status ≠ .running) : machine.note? = none := by
  rw [note?, met?, if_neg stands]
  rfl

/-- A machine that runs notes the instruction that it meets, with the registers before it. -/
theorem note?_of_meets (runs : machine.status = .running) (meets : machine.Meets instruction) :
    machine.note? = some (.instruction machine.registers.pc instruction machine.registers) := by
  rw [note?, met?_eq_some_iff.mpr ⟨runs, meets⟩]
  rfl

/-- Entries that are written one after another are written in that order. -/
theorem Writes.trans {first second : List TraceEntry} (one : machine.Writes first middle)
    (other : middle.Writes second after) : machine.Writes (first ++ second) after where
  tracing := other.tracing
  traceEntries_eq := by
    rw [other.traceEntries_eq, one.traceEntries_eq, List.append_assoc]

/-- A machine that traces records what it is told to, as the last entry. -/
theorem writes_record (tracing : machine.tracing = true) (entry : TraceEntry) :
    machine.Writes [entry] (machine.record entry) := by
  rw [record, if_pos tracing]
  exact ⟨tracing, List.reverse_cons⟩

/-- A machine that traces and is stopped with a fault records the fault. -/
theorem writes_stopWith (tracing : machine.tracing = true) (pc : Int) (cause : FaultCause)
    (effects : Effects) :
    machine.Writes [.fault cause] (machine.stopWith pc cause effects).machine := by
  obtain ⟨still, entries⟩ := writes_record tracing (.fault cause)
  exact ⟨still, entries⟩

/-- What is observed is not recorded: the trace and the observations are kept apart. -/
theorem writes_observe (tracing : machine.tracing = true) (report : Report)
    (registers : Registers) : machine.Writes [] { machine.observe report with registers } := by
  cases report with
  | _ => exact ⟨tracing, (List.append_nil _).symm⟩

/-- One step of a machine that runs and traces: it notes the instruction that it meets, if there
is one, and then its fault, if it stops with one. -/
theorem writes_advanced (runs : machine.status = .running) (tracing : machine.tracing = true) :
    machine.Writes (machine.note?.toList ++ faultEntries machine.advanced.machine.status)
      machine.advanced.machine := by
  cases fetched : machine.ram.fetch machine.profile machine.registers.pc with
  | error error =>
      have nothing : machine.note? = none := by
        rw [note?, met?, if_pos runs, fetched]
        rfl
      cases causes : FaultCause.ofFetch machine.registers.pc error with
      | error tooLong =>
          have failed : machine.advance = .error tooLong := by
            simp only [advance, fetched, causes]
            rfl
          rw [nothing, advanced_of_error failed, runs]
          exact ⟨tracing, (List.append_nil _).symm⟩
      | ok cause =>
          rw [nothing, (advance_of_fetch_error fetched causes).status_eq]
          simp only [advanced, advance, fetched, causes]
          exact writes_stopWith tracing ..
  | ok instruction =>
      have noted : machine.note? =
          some (.instruction machine.registers.pc instruction machine.registers) :=
        note?_of_meets runs (Ram.fetch_eq_ok_iff.mp fetched)
      have recorded := writes_record tracing
        (.instruction machine.registers.pc instruction machine.registers)
      cases executed : instruction.execute machine.ram machine.registers with
      | halt =>
          rw [noted, (advance_of_halt fetched executed).status_eq]
          simp only [advanced, advance, fetched, ram_record, registers_record, executed]
          exact ⟨recorded.tracing, recorded.traceEntries_eq⟩
      | invalidRegister register =>
          rw [noted, (advance_of_invalidRegister fetched executed).status_eq]
          simp only [advanced, advance, fetched, ram_record, registers_record, executed]
          exact recorded.trans (writes_stopWith recorded.tracing ..)
      | noTarget error =>
          obtain ⟨named, names⟩ :=
            Meets.exists_named_of_noTarget (Ram.fetch_eq_ok_iff.mp fetched) executed
          rw [noted, (advance_of_noTarget fetched executed names).status_eq]
          simp only [advanced, advance, fetched, ram_record, registers_record, executed, names]
          exact recorded.trans (writes_stopWith recorded.tracing ..)
      | next registers report =>
          have done := recorded.trans (writes_observe recorded.tracing report (countStep registers))
          rw [noted, (advance_of_next fetched executed).status_eq]
          simp only [advanced, advance, fetched, ram_record, registers_record, executed]
          have memory := (machine.becomes_record
            (.instruction machine.registers.pc instruction machine.registers)).trans
              (becomes_observe _ report)
          have same := congrArg (fun ram : Ram => ram.contains registers.pc) memory.ram_eq
          by_cases inside : machine.ram.contains registers.pc = true
          · rw [if_pos inside, if_pos (same.trans inside), runs]
            exact done
          · rw [if_neg inside, if_neg fun within => inside (same.symm.trans within)]
            have stopped := done.trans (writes_stopWith done.tracing machine.registers.pc
              (.outOfBounds registers.pc) report.effects)
            rw [List.append_nil] at stopped
            exact stopped

/-- **Any step** of a machine that traces notes the instruction that it meets, if there is one, and
then the fault that it stops with, if it does. A machine that does not run writes nothing down. -/
theorem writes_next (tracing : machine.tracing = true) :
    machine.Writes (machine.note?.toList ++
      if machine.status = .running then faultEntries machine.next.status else []) machine.next := by
  by_cases runs : machine.status = .running
  · rw [if_pos runs, next_of_running runs]
    exact writes_advanced runs tracing
  · rw [if_neg runs, note?_of_not_running runs, next_of_not_running runs]
    exact ⟨tracing, (List.append_nil _).symm⟩

/-! ### A run -/

/-- The **notes** of some steps in their order, where a step that notes nothing is left out. -/
def notes (machine : Machine) (steps : Nat) : List TraceEntry :=
  (List.range steps).filterMap fun k => (next^[k] machine).note?

theorem notes_succ (machine : Machine) (steps : Nat) :
    machine.notes (steps + 1) = machine.notes steps ++ (next^[steps] machine).note?.toList := by
  rw [notes, List.range_succ, List.filterMap_append, notes]
  refine congrArg _ ?_
  rw [List.filterMap_cons]
  cases (next^[steps] machine).note? <;> rfl

/-- **All through a run** a machine that traces has written down its notes, and then its fault, if
it has stopped with one. -/
theorem writes_iterate_next (tracing : machine.tracing = true)
    (unharmed : machine.status.fault? = none) (steps : Nat) :
    machine.Writes (machine.notes steps ++ faultEntries (next^[steps] machine).status)
      (next^[steps] machine) := by
  induction steps with
  | zero =>
      have nothing : faultEntries machine.status = [] := by rw [faultEntries, unharmed]; rfl
      refine ⟨tracing, ?_⟩
      rw [Function.iterate_zero_apply, nothing]
      exact (List.append_nil _).symm
  | succ steps ih =>
      have one := writes_next ih.tracing
      rw [notes_succ, Function.iterate_succ_apply']
      by_cases runs : (next^[steps] machine).status = .running
      · -- Nothing has been written down but notes so far.
        have both := ih.trans one
        have nothing : faultEntries (next^[steps] machine).status = [] := by rw [runs]; rfl
        rw [nothing, List.append_nil, if_pos runs, ← List.append_assoc] at both
        exact both
      · rw [note?_of_not_running runs, next_of_not_running runs, Option.toList_none,
          List.append_nil]
        exact ih

/-! ### Notes and steps -/

/-- What breaks off was refused: the register or the target was missing. -/
theorem BreaksOff.refuses (breaks : machine.BreaksOff) : ∃ kind, machine.Refuses kind := by
  cases breaks with
  | register _ meets needed missing => exact ⟨_, .register meets needed missing⟩
  | target _ meets outside =>
      have holds : machine.ram.HoldsAt machine.registers.pc [Mnemonic.jump.opcode] := meets.2
      have inside := Ram.contains_iff.mp holds.contains
      rw [Ram.contains_iff] at outside
      refine ⟨_, .cutOff holds ?_⟩
      rw [Mnemonic.reach]
      omega

/-- What breaks off is met, by a machine that runs. So it has been noted, though it was not
executed. -/
theorem BreaksOff.exists_meets (breaks : machine.BreaksOff) :
    machine.status = .running ∧ ∃ instruction, machine.Meets instruction := by
  cases breaks with
  | register runs meets => exact ⟨runs, _, meets⟩
  | target runs meets => exact ⟨runs, _, meets⟩

/-- A step that breaks off stops with a fault at the instruction that was noted. -/
theorem BreaksOff.exists_status_next (breaks : machine.BreaksOff) :
    ∃ cause, machine.next.status = .faulted ⟨cause, machine.registers.pc⟩ := by
  obtain ⟨kind, refuses⟩ := breaks.refuses
  obtain ⟨cause, -, becomes⟩ := refuses.becomes
  rw [next_of_running breaks.exists_meets.1]
  exact ⟨cause, becomes.status_eq⟩

/-- An instruction that is met is completed, or it breaks off. Both have a line in the trace. -/
theorem completes_or_breaksOff (runs : machine.status = .running)
    (meets : machine.Meets instruction) : machine.Completes instruction ∨ machine.BreaksOff := by
  by_cases exist : ∀ register ∈ instruction.registersNeeded,
      register.toNat < machine.registers.count
  · by_cases finds : instruction = .jump none →
        machine.ram.contains (machine.registers.pc + 1) = true
    · exact .inl ⟨runs, meets, exist, finds⟩
    · obtain ⟨rfl, outside⟩ := Classical.not_imp.mp finds
      exact .inr (.target runs meets outside)
  · obtain ⟨register, needed, missing⟩ : ∃ register, register ∈ instruction.registersNeeded ∧
        ¬ register.toNat < machine.registers.count := by
      simpa only [not_forall, exists_prop] using exist
    exact .inr (.register runs meets needed (Nat.le_of_not_lt missing))

/-- A step notes as many instructions as it counts, unless it breaks one off: that is noted, and
does not count. -/
theorem counts_or_breaksOff (machine : Machine) :
    (¬ machine.BreaksOff ∧
        machine.next.registers.steps = machine.registers.steps + machine.note?.toList.length) ∨
      machine.BreaksOff ∧ machine.note?.toList.length = 1 ∧
        machine.next.registers.steps = machine.registers.steps := by
  by_cases breaks : machine.BreaksOff
  · obtain ⟨runs, instruction, meets⟩ := breaks.exists_meets
    obtain ⟨kind, refuses⟩ := breaks.refuses
    rw [note?_of_meets runs meets, refuses.registers_next runs]
    exact .inr ⟨breaks, rfl, rfl⟩
  · refine .inl ⟨breaks, ?_⟩
    cases met : machine.met? with
    | none =>
        have none : ¬ ∃ instruction, machine.Completes instruction := by
          rintro ⟨instruction, completes⟩
          rw [met?_eq_some_iff.mpr ⟨completes.runs, completes.meets⟩] at met
          cases met
        rw [steps_next, if_neg none, note?, met]
        rfl
    | some instruction =>
        obtain ⟨runs, meets⟩ := met?_eq_some_iff.mp met
        have completes := (completes_or_breaksOff runs meets).resolve_right breaks
        rw [completes.steps_next, note?_of_meets runs meets]
        rfl

/-- **All through a run** there are as many notes as steps that count, and one more exactly if the
last step that was made has broken its instruction off. -/
theorem length_notes (machine : Machine) (steps : Nat) :
    ((¬ ∃ k < steps, (next^[k] machine).BreaksOff) ∧
        (machine.notes steps).length + machine.registers.steps =
          (next^[steps] machine).registers.steps) ∨
      (∃ k < steps, (next^[k] machine).BreaksOff ∧ next^[k + 1] machine = next^[steps] machine) ∧
        (machine.notes steps).length + machine.registers.steps =
          (next^[steps] machine).registers.steps + 1 := by
  induction steps with
  | zero =>
      refine .inl ⟨fun ⟨k, early, _⟩ => absurd early (Nat.not_lt_zero k), ?_⟩
      exact Nat.zero_add _
  | succ steps ih =>
      have step := counts_or_breaksOff (next^[steps] machine)
      rw [notes_succ, List.length_append, Function.iterate_succ_apply']
      rcases ih with ⟨none, count⟩ | ⟨⟨k, early, breaks, last⟩, count⟩
      · rcases step with ⟨unbroken, counts⟩ | ⟨breaks, noted, still⟩
        · refine .inl ⟨?_, by omega⟩
          rintro ⟨k, early, breaks⟩
          rcases Nat.lt_succ_iff_lt_or_eq.mp early with less | rfl
          · exact none ⟨k, less, breaks⟩
          · exact unbroken breaks
        · exact .inr ⟨⟨steps, Nat.lt_succ_self steps, breaks,
            Function.iterate_succ_apply' next steps machine⟩, by omega⟩
      · -- The machine has stopped where it broke off, and it notes nothing more.
        have stands : (next^[steps] machine).status ≠ .running := by
          obtain ⟨cause, stopped⟩ := breaks.exists_status_next
          rw [← Function.iterate_succ_apply' next k machine, last] at stopped
          rw [stopped]
          exact nofun
        rw [note?_of_not_running stands, next_of_not_running stands]
        exact .inr ⟨⟨k, Nat.lt_succ_of_lt early, breaks, last⟩, count⟩

/-! ### The lines of a trace -/

/-- The lines of the notes: the address, the instruction as it is printed, and the registers. -/
theorem map_line_notes (machine : Machine) (steps : Nat) :
    (machine.notes steps).map TraceEntry.line =
      (List.range steps).filterMap fun k => (next^[k] machine).met?.map fun instruction =>
        Text.address (next^[k] machine).registers.pc ++ ": ".toList ++
          Text.padRight 16 instruction.format ++ ' ' :: (next^[k] machine).registers.display := by
  rw [notes, List.map_filterMap]
  refine List.filterMap_congr fun k _ => ?_
  rw [note?, Option.map_map]
  rfl

/-- The line of a note begins with a dollar sign, which is that of the address. -/
theorem head?_of_mem_notes {line : Text} {steps : Nat}
    (inside : line ∈ (machine.notes steps).map TraceEntry.line) : line.head? = some '$' := by
  rw [map_line_notes, List.mem_filterMap] at inside
  obtain ⟨k, -, found⟩ := inside
  obtain ⟨instruction, -, rfl⟩ := Option.map_eq_some_iff.mp found
  rfl

/-- The line of a fault begins with a blank, so it is told from that of an instruction. -/
theorem head?_of_mem_faultEntries {line : Text} {status : Status}
    (inside : line ∈ (faultEntries status).map TraceEntry.line) : line.head? = some ' ' := by
  rw [faultEntries, List.map_map, List.mem_map] at inside
  obtain ⟨fault, -, rfl⟩ := inside
  rfl

/-- The lines that begin with a dollar sign are those of the notes, so a trace can be counted. -/
theorem filter_lines (machine : Machine) (steps : Nat) (status : Status) :
    ((machine.notes steps ++ faultEntries status).map TraceEntry.line).filter
        (fun line => line.head? = some '$') = (machine.notes steps).map TraceEntry.line := by
  have kept : ∀ line ∈ (machine.notes steps).map TraceEntry.line,
      decide (line.head? = some '$') = true := fun line inside =>
    decide_eq_true (head?_of_mem_notes inside)
  have dropped : ∀ line ∈ (faultEntries status).map TraceEntry.line,
      ¬ decide (line.head? = some '$') = true := by
    intro line inside
    rw [head?_of_mem_faultEntries inside]
    decide
  rw [List.map_append, List.filter_append, List.filter_eq_self.mpr kept,
    List.filter_eq_nil_iff.mpr dropped, List.append_nil]

/-- **The trace records what was executed.** Load an image into any machine, turn tracing on, and
make any number of steps. The lines of the trace are those of the instructions that were met, in
order, each with the address and the registers from before it was executed; and behind them stands
the line of the fault, if the machine has stopped with one. Only the former begin with a dollar
sign. There are as many of them as steps were counted, and one more exactly if the last step that
was made has broken its instruction off. -/
theorem trace_records_executed (machine : Machine) (image : List UInt8) (steps : Nat) :
    let start := (machine.load image).trace true
    let behind (k : Nat) := next^[k] start
    let reached := behind steps
    let lines := (List.range steps).filterMap fun k => (behind k).met?.map fun instruction =>
      Text.address (behind k).registers.pc ++ ": ".toList ++ Text.padRight 16 instruction.format ++
        ' ' :: (behind k).registers.display
    start.stepTimes steps = .ok reached ∧
      reached.traceLines = lines ++ reached.status.fault?.toList.map (fun fault =>
        "  FAULT: ".toList ++ fault.cause.message.toList) ∧
      reached.traceLines.filter (fun line => line.head? = some '$') = lines ∧
      (lines.length = reached.registers.steps ∨ lines.length = reached.registers.steps + 1) ∧
      (lines.length = reached.registers.steps + 1 ↔
        ∃ k < steps, (behind k).BreaksOff ∧ behind (k + 1) = reached) := by
  intro start behind reached lines
  have noted : (start.notes steps).map TraceEntry.line = lines := start.map_line_notes steps
  have faulted : (faultEntries reached.status).map TraceEntry.line =
      reached.status.fault?.toList.map fun fault =>
        "  FAULT: ".toList ++ fault.cause.message.toList := by
    rw [faultEntries, List.map_map]
    rfl
  have written : reached.traceLines =
      (start.notes steps ++ faultEntries reached.status).map TraceEntry.line :=
    congrArg _ (writes_iterate_next rfl rfl steps : start.Writes _ reached).traceEntries_eq
  have counted := start.length_notes steps
  rw [← List.length_map TraceEntry.line, noted] at counted
  have ready : start.Ready := ⟨nofun, (machine.ready_load image).names⟩
  refine ⟨ready.stepTimes_eq steps, ?_, ?_, counted.imp And.right And.right, ?_⟩
  · rw [written, List.map_append, noted, faulted]
  · rw [written, filter_lines, noted]
  · rcases counted with ⟨unbroken, count⟩ | ⟨broken, count⟩
    · refine iff_of_false (fun more => ?_) fun ⟨k, early, breaks, _⟩ => unbroken ⟨k, early, breaks⟩
      exact absurd (count.symm.trans more) (Nat.ne_of_lt (Nat.lt_succ_self _))
    · exact iff_of_true count broken

/-- An instruction that needs a register which does not exist is written down like one that is
executed, and breaks off. -/
theorem exists_trace_of_missing_register :
    let start := ((zeroed .classic 1 8).load
      [Mnemonic.store.opcode, 0, 7, Mnemonic.store.opcode, 9, 1]).trace true
    (next^[5] start).traceLines = ["$00: STORE R0, 7      PC=$00".toList,
      "$03: STORE R9, 1      PC=$03 R0=7".toList,
      "  FAULT: Invalid register index 9 (have 1)".toList] ∧
    (next^[5] start).registers.steps = 1 ∧
    ∃ k < 5, (next^[k] start).BreaksOff ∧ next^[k + 1] start = next^[5] start := by
  intro start
  obtain ⟨-, -, -, -, broken⟩ := trace_records_executed (zeroed .classic 1 8)
    [Mnemonic.store.opcode, 0, 7, Mnemonic.store.opcode, 9, 1] 5
  exact ⟨by decide +kernel, by decide +kernel, broken.mp (by decide +kernel)⟩

end ByteMachine.Machine
