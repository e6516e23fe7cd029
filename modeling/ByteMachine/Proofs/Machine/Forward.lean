import ByteMachine.Proofs.Assembly.Profiles
import ByteMachine.Proofs.Machine.Completion
import ByteMachine.Proofs.Machine.Confinement
import ByteMachine.Proofs.Machine.Recurrence

/-!
# Programs that go forward

A program text goes forward if every branch line names a label that a later line declares. Such a
program ends. What decreases is nothing that the machine holds: it is the number of instruction
lines that are left in the program text. A label that is declared further down has all instruction
lines up to the branch before it, so its index is larger than that of the branch, and under true
sizes the addresses of lines go up with their indices. A step that passes therefore leads from a
line to a later one, whether or not a branch is taken and however much of the image the memory
holds, and behind as many steps as there are lines there is none left.

## Main results

* `index_lt_indexOf`: a label that is declared later has a larger index.
* `Confined.exists_later_of_passes`: a step that passes leads to a later line.
* `Confined.exists_later_iterate`: so do more of them, each to a later one.
* `forward_run`: a program that goes forward, from loading its image to the end of its run.
-/

namespace ByteMachine

/-- A program text **goes forward**: every branch line names a label that a later line declares. -/
def GoesForward : List Statement → Prop
  | [] => True
  | statement :: rest =>
    (∀ name ∈ statement.goesTo?, Statement.label name ∈ rest) ∧ GoesForward rest

/-- Whether a program text goes forward can be read off its lines, from the first to the last. -/
instance decidableGoesForward : (source : List Statement) → Decidable (GoesForward source)
  | [] => isTrue trivial
  | _ :: rest => @instDecidableAnd _ _ inferInstance (decidableGoesForward rest)

/-- A machine **stands on** the instruction line of an index: it runs, and its program counter is
the address that the listing has for the line. -/
def Machine.StandsOn (machine : Machine) (context : Context) (index : Nat) : Prop :=
  machine.status = .running ∧
    ∃ entry, context.listing[index]? = some entry ∧ machine.registers.pc = entry.address

/-! ### Lines -/

/-- A statement in front of a label raises its index by one if it is an instruction, and not at all
if it is not. -/
theorem indexOf_cons_of_ne {statement : Statement} {name : Text} (rest : List Statement)
    (other : statement ≠ .label name) :
    indexOf (statement :: rest) name =
      indexOf rest name + if statement.isInstruction then 1 else 0 := by
  rw [indexOf, beforeLabel_cons_of_ne rest other, List.countP_cons, indexOf]

/-- Where a program text goes forward, the label that an instruction goes to is declared, and has a
**larger index** than the instruction. -/
theorem index_lt_indexOf {lines : List Line} {program : List Written}
    (writes : List.Forall₂ (fun line => line.statement.Writes) (instructionLines lines) program)
    (distinct : (declaredNames (lines.map Line.statement)).Nodup)
    (forward : GoesForward (lines.map Line.statement)) {index : Nat} {written : Written}
    {name : Text} (there : program[index]? = some written) (goes : written.label? = some name) :
    .label name ∈ lines.map Line.statement ∧ index < indexOf (lines.map Line.statement) name := by
  induction lines generalizing program index with
  | nil =>
      cases writes
      cases there
  | cons line lines ih =>
      rw [List.map_cons] at distinct forward ⊢
      obtain ⟨named, forward⟩ := forward
      have behind := (declaredNames_append [line.statement] _ ▸ distinct).of_append_right
      by_cases instruction : line.statement.isInstruction = true
      · rw [instructionLines_cons_of_isInstruction lines instruction] at writes
        have other : line.statement ≠ .label name := by
          intro same
          rw [same] at instruction
          cases instruction
        have raised := indexOf_cons_of_ne (lines.map Line.statement) other
        rw [if_pos instruction] at raised
        rw [raised]
        cases writes with
        | cons head tail =>
            cases index with
            | zero =>
                -- The instruction is that of this line, and so the label is declared behind it.
                cases there
                have declared := named name (head.goesTo?_eq.trans goes)
                exact ⟨List.mem_cons_of_mem _ declared, Nat.succ_pos _⟩
            | succ index =>
                obtain ⟨declared, later⟩ := ih tail behind forward there
                exact ⟨List.mem_cons_of_mem _ declared, Nat.succ_lt_succ later⟩
      · rw [instructionLines_cons_of_not_isInstruction lines instruction] at writes
        obtain ⟨declared, later⟩ := ih writes behind forward there
        -- The label is declared behind this line, and this line does not declare it a second time.
        have other : line.statement ≠ .label name := by
          intro same
          rw [same] at distinct
          exact (List.nodup_cons.mp distinct).1 (mem_declaredNames_iff.mpr declared)
        rw [indexOf_cons_of_ne _ other, if_neg instruction]
        exact ⟨List.mem_cons_of_mem _ declared, later⟩

section Assembled

variable {profile : Profile} {maxLabels : Int} {source : Text} {program : List Written}
  {context : Context} (assembles : Assembles profile maxLabels source program context)

include assembles

/-- A program text has as many instruction lines as its image has instructions. -/
theorem Assembles.countP_isInstruction :
    (statements source).countP Statement.isInstruction = program.length := by
  rw [← assembles.length_eq, instructionLines, ← List.countP_eq_length_filter,
    ← map_statement_sourceLines, List.countP_map]
  rfl

/-- A machine stands on a line if it runs at the boundary of that line's instruction. -/
theorem Assembles.standsOn_iff {machine : Machine} {index : Nat} :
    machine.StandsOn context index ↔ machine.status = .running ∧ index < program.length ∧
      machine.registers.pc = context.boundary index := by
  rw [Machine.StandsOn, Context.boundary, ← assembles.length_listing_eq]
  constructor
  · rintro ⟨runs, entry, there, stands⟩
    rw [there]
    exact ⟨runs, (List.getElem?_eq_some_iff.mp there).1, stands⟩
  · rintro ⟨runs, inside, stands⟩
    rw [List.getElem?_eq_getElem inside] at stands
    exact ⟨runs, _, List.getElem?_eq_getElem inside, stands⟩

/-- Where a program text goes forward, a line leads to a later one, unless it is `EXIT`. -/
theorem Assembles.lt_of_leads (forward : GoesForward (statements source)) {index next : Nat}
    {written : Written} (there : program[index]? = some written) (goesOn : written ≠ .exit)
    (leads : written.Leads (indexOf (statements source)) index next) : index < next := by
  cases leads with
  | stays exits => exact absurd exits goesOn
  | goesOn => exact Nat.lt_succ_self index
  | branches goes =>
      have distinct := (freeOf_placingDefect_iff.mp assembles.placed).1
      rw [← map_statement_sourceLines] at distinct forward ⊢
      exact (index_lt_indexOf assembles.writes distinct forward there goes).2

end Assembled

/-! ### Steps -/

/-- A machine that is confined is ready for a step: while it runs, its program counter is in the
memory. -/
theorem Confined.ready {context : Context} {profile : Profile} {ram : Ram} {machine : Machine}
    (confined : Confined context profile ram machine) : machine.Ready where
  loaded := confined.loaded
  names runs := by
    have inside := confined.inside runs
    rw [← confined.ram_eq] at inside
    exact Ram.names_of_contains inside

section Steps

variable {profile : Profile} {maxLabels : Int} {source : Text} {program : List Written}
  {context : Context} (assembles : Assembles profile maxLabels source program context)
  (exact : profile.fixedSizing = false) (carries : profile.encodesTargets = true)
  {ram : Ram} {machine : Machine}

include assembles exact carries

/-- Any number of steps keeps a machine confined, now for the machines of a run. -/
theorem Confined.iterate_next
    (confined : Confined context profile (ram.load context.program) machine) (steps : Nat) :
    Confined context profile (ram.load context.program) (Machine.next^[steps] machine) := by
  refine Machine.iterate_next (fun other stays => ?_) confined steps
  obtain ⟨transition, made, next⟩ := stays.step assembles exact carries
  rw [Machine.next, Machine.perform, made]
  exact next

variable (forward : GoesForward (statements source))
  (confined : Confined context profile (ram.load context.program) machine)
  {index : Nat} (stands : machine.registers.pc = context.boundary index)

include forward confined stands

/-- A step that passes leads from a line to a later one, or to the end of the image. -/
theorem Confined.exists_later_of_passes (passes : machine.Passes) :
    index < program.length ∧
      ∃ later, index < later ∧ machine.next.registers.pc = context.boundary later := by
  obtain ⟨instruction, completes, goesOn, goes⟩ := Machine.exists_completes_of_passes passes
  have inside := confined.inside completes.runs
  rw [stands, Ram.contains_natCast, Ram.size_load] at inside
  rcases completes.meets.eq_exit_or_encode assembles confined.profile_eq confined.ram_eq inside
    stands with exits | ⟨written, there, rfl⟩
  · exact absurd exits goesOn
  · obtain ⟨later, leads, arrives⟩ := assembles.pcAfter_boundary exact carries there stands
    have leaves : written ≠ .exit := by
      rintro rfl
      exact goesOn rfl
    exact ⟨(List.getElem?_eq_some_iff.mp there).1, later,
      assembles.lt_of_leads forward there leaves leads, goes.trans arrives⟩

/-- Steps that **pass** lead past one line each, by induction on their number. So there are never
more of them than lines. -/
theorem Confined.exists_later_iterate {steps : Nat}
    (passes : ∀ k < steps, (Machine.next^[k] machine).Passes) :
    ∃ later, index + steps ≤ later ∧
      (Machine.next^[steps] machine).registers.pc = context.boundary later := by
  induction steps with
  | zero => exact ⟨index, Nat.le_refl index, stands⟩
  | succ steps ih =>
      obtain ⟨reached, ahead, there⟩ := ih fun k early => passes k (Nat.lt_succ_of_lt early)
      have confined' := confined.iterate_next assembles exact carries steps
      obtain ⟨-, later, further, arrives⟩ := confined'.exists_later_of_passes assembles exact
        carries forward there (passes steps (Nat.lt_succ_self steps))
      rw [Function.iterate_succ_apply']
      exact ⟨later, by omega, arrives⟩

/-- There are no more steps that pass than lines that are left, so the program comes to an end. -/
theorem Confined.le_of_passes {steps : Nat}
    (passes : ∀ k < steps, (Machine.next^[k] machine).Passes) : steps ≤ program.length - index := by
  cases steps with
  | zero => exact Nat.zero_le _
  | succ steps =>
      obtain ⟨reached, ahead, there⟩ := confined.exists_later_iterate assembles exact carries
        forward stands fun k early => passes k (Nat.lt_succ_of_lt early)
      have confined' := confined.iterate_next assembles exact carries steps
      obtain ⟨left, -⟩ := confined'.exists_later_of_passes assembles exact carries forward there
        (passes steps (Nat.lt_succ_self steps))
      omega

omit stands

/-- Lines are stood on in order: the line behind some steps is a later one. -/
theorem Confined.lt_of_standsOn {steps later : Nat} (one : machine.StandsOn context index)
    (other : (Machine.next^[steps + 1] machine).StandsOn context later) : index < later := by
  obtain ⟨-, -, stands⟩ := assembles.standsOn_iff.mp one
  obtain ⟨runs, inside, there⟩ := assembles.standsOn_iff.mp other
  obtain ⟨reached, ahead, arrives⟩ := confined.exists_later_iterate assembles exact carries forward
    stands (confined.ready.passes_of_status runs)
  by_contra back
  -- A line at or before this one begins before the one that has been reached, not at it.
  have before := assembles.boundary_lt_boundary (show later < reached by omega) inside
  rw [there] at arrives
  omega

end Steps

/-! ### Whole runs -/

/-- **A program that goes forward ends**, under true sizes and with targets carried, whether or not
the memory holds all of it. Its run stops within one step more than there are instruction lines, for
the same reason under every limit that allows for these. While the machine runs it stands on a line,
or at the end of the image; and the lines that it stands on, one step after the other, come in the
order of the program text, so that none of them is executed twice. -/
theorem forward_run (machine : Machine) (text : Text) (maxLabels maxProgramSize : Int)
    {context : Context} (exact : machine.profile.fixedSizing = false)
    (carries : machine.profile.encodesTargets = true) (positive : 0 < machine.ram.size)
    (assembled : (assemble machine.profile text maxLabels maxProgramSize).result = .ok context)
    (forward : GoesForward (statements text)) :
    let loaded := machine.load context.program
    let behind (steps : Nat) := (loaded.session (List.replicate steps .step)).1
    (∃ transition,
      (∀ limit, (statements text).countP Statement.isInstruction < limit →
        loaded.runFor limit = .ok transition) ∧
      loaded.run = .ok transition ∧ transition.reason? ≠ none) ∧
    (∀ k, (behind k).status = .running →
      (∃ index, (behind k).StandsOn context index) ∨
        (behind k).registers.pc = context.program.length) ∧
    ∀ j k, j < k → ∀ index later, (behind j).StandsOn context index →
      (behind k).StandsOn context later → index < later := by
  intro loaded behind
  obtain ⟨program, assembles⟩ := exists_assembles assembled
  have confined : Confined context machine.profile (machine.ram.load context.program) loaded :=
    confined_load assembles positive
  have start : loaded.registers.pc = context.boundary 0 := by
    rw [assembles.boundary_eq]
    rfl
  have runs : loaded.status = .running := rfl
  have reaches (k : Nat) : behind k = Machine.next^[k] loaded := by
    simp only [behind, Machine.session_replicate_step]
  simp only [reaches]
  refine ⟨?_, ?_, ?_⟩
  · rw [assembles.countP_isInstruction]
    rcases confined.ready.passes_or_stops (program.length + 1) with
      passes | ⟨k, early, reason, passes, stops⟩
    · have few := confined.le_of_passes assembles exact carries forward start passes
      omega
    · have inside := confined.inside runs
      rw [← confined.ram_eq] at inside
      have within := Machine.lt_stateCount_of_stops runs inside passes stops
      exact ⟨_, fun limit long => Machine.runFor_of_stops passes stops (by omega),
        Machine.runFor_of_stops passes stops (Nat.lt_succ_of_lt within), Option.some_ne_none _⟩
  · intro k still
    have confined' := confined.iterate_next assembles exact carries k
    obtain ⟨index, stands⟩ := confined'.boundary still
    by_cases inside : index < program.length
    · exact .inl ⟨index, assembles.standsOn_iff.mpr ⟨still, inside, stands⟩⟩
    · rw [assembles.boundary_of_length_le (Nat.le_of_not_lt inside)] at stands
      exact .inr stands
  · intro j k before index later one other
    obtain ⟨more, rfl⟩ := Nat.exists_eq_add_of_lt before
    have confined' := confined.iterate_next assembles exact carries j
    rw [Nat.add_assoc, Nat.add_comm, Function.iterate_add_apply] at other
    exact confined'.lt_of_standsOn assembles exact carries forward one other

/-- A program that goes over two of its lines, and whose last line is cut off, ends within six
steps. -/
theorem exists_forward_run_cutOff :
    let text := "IF R0, 0, SKIP\nDPR R0\nSKIP:\nJMP END\nDPR R1\nEND:\nDPR R1".toList
    let machine := Machine.zeroed .resolved 2 11
    GoesForward (statements text) ∧ (statements text).countP Statement.isInstruction = 5 ∧
      ∃ context, (assemble .resolved text 50 256).result = .ok context ∧
      machine.ram.size < context.program.length ∧
      ∃ transition, (∀ limit, 5 < limit →
          (machine.load context.program).runFor limit = .ok transition) ∧
        (machine.load context.program).run = .ok transition ∧ transition.reason? ≠ none := by
  intro text machine
  have worked : (assemble .resolved text 50 256).result.toOption.any
      (fun context => 11 < context.program.length) = true := by decide +kernel
  obtain ⟨context, assembled, cut⟩ := exists_context_of_any worked
  have size : machine.ram.size = 11 := List.length_replicate
  have forward : GoesForward (statements text) := by decide +kernel
  have lines : (statements text).countP Statement.isInstruction = 5 := by decide +kernel
  obtain ⟨ends, -, -⟩ :=
    forward_run machine text 50 256 rfl rfl (size ▸ Nat.succ_pos 10) assembled forward
  rw [lines] at ends
  exact ⟨forward, lines, context, assembled, size ▸ of_decide_eq_true cut, ends⟩

end ByteMachine
