import Mathlib.Logic.Function.Iterate
import ByteMachine.Machine.Session
import ByteMachine.Proofs.Machine.Faults

/-!
# Runs of the machine

Step after step. A machine has a `next` machine whatever its status, because a step that cannot be
made leaves it as it is, so a number of steps is an iterate of `next`. A step `Passes` if it is
made and does not stop the machine; a run of limited length either passes all its steps, or it ends
with the first that does not.

A machine is `Ready` if a step can be asked of it: it is not idle, and if it runs then its program
counter can be named. Every machine that has loaded an image is ready, and stays so step by step.

A machine never stops that passes up to a second visit of the same place (`passes_of_returns`).
What counts as the same place is left open: any relation that steps preserve and that tells whether
a step passes.

## Main results

* `exists_becomes_next`: what any step leaves as it is.
* `Ready.ready_next`: a machine that is ready stays so.
* `stepTimes_eq`, `session_replicate_step`: numbers of steps are iterates.
* `runFor_of_passes`, `runFor_of_stops`, `passes_or_stops`: how a run ends.
* `passes_of_returns`: a machine that comes back never stops.
-/

namespace ByteMachine.Machine

/-- The machine **behind** a step, or as it is if no step can be made. A run goes through the
iterates of this function. -/
def next (machine : Machine) : Machine :=
  (machine.perform .step).machine

/-- A step **passes**: it is made and does not stop the machine, so a run goes on behind it. -/
def Passes (machine : Machine) : Prop :=
  (machine.perform .step).answer = .reason none

/-- A step stops the machine, or finds it stopped, so a run ends with it. -/
def Stops (machine : Machine) (reason : StopReason) : Prop :=
  (machine.perform .step).answer = .reason (some reason)

/-- The effects of a number of steps, one after the other. -/
def effectsOf (machine : Machine) (steps : Nat) : List Effects :=
  (List.range steps).map fun k => ((next^[k] machine).perform .step).effects

variable {machine : Machine}

/-! ### One step -/

/-- A machine that runs goes on to what its step leaves, and answers with the reason of that. -/
theorem perform_step_of_running (runs : machine.status = .running) (names : machine.NamesPc) :
    machine.perform .step = ⟨machine.advanced.machine, .reason machine.advanced.reason?,
      machine.advanced.effects⟩ := by
  rw [perform, step_of_namesPc runs names]
  rfl

/-- A machine that runs and fails to make its step answers why, and is left as it is. -/
theorem perform_step_of_not_namesPc (runs : machine.status = .running)
    (unnamed : ¬ machine.NamesPc) :
    machine.perform .step = ⟨machine, .failed (.step (.unnamed {})), {}⟩ := by
  rw [perform, step_of_not_namesPc runs unnamed]
  rfl

/-- A machine that runs goes on to what its step leaves, which is itself if the step fails. -/
theorem next_of_running (runs : machine.status = .running) :
    machine.next = machine.advanced.machine := by
  by_cases names : machine.NamesPc
  · exact congrArg Reply.machine (perform_step_of_running runs names)
  · rw [advanced_of_not_namesPc names]
    exact congrArg Reply.machine (perform_step_of_not_namesPc runs names)

/-- A machine that does not run stays as it is, and answers why: it has stopped, or nothing was
loaded. -/
theorem perform_step_of_not_running (stands : machine.status ≠ .running) :
    machine.perform .step = ⟨machine, if machine.status = .idle then .failed (.step .notLoaded)
      else .reason machine.stopReason?, {}⟩ := by
  rw [perform, step, status]
  cases state : machine.state with
  | running => exact absurd (status_eq_running_iff.mpr state) stands
  | _ => rfl

theorem next_of_not_running (stands : machine.status ≠ .running) : machine.next = machine :=
  congrArg Reply.machine (perform_step_of_not_running stands)

/-- A step that is not made, or finds the machine stopped, leaves it as it is. -/
theorem next_of_not_made (stays : ¬ (machine.status = .running ∧ machine.NamesPc)) :
    machine.next = machine := by
  by_cases runs : machine.status = .running
  · exact congrArg Reply.machine
      (perform_step_of_not_namesPc runs fun names => stays ⟨runs, names⟩)
  · exact next_of_not_running runs

/-- **Any step** leaves the profile, the memory and the number of registers as they are, whether it
is made or not. All that runs keep is read off this. -/
theorem exists_becomes_next (machine : Machine) :
    ∃ registers shown status, registers.count = machine.registers.count ∧
      machine.Becomes registers shown status machine.next := by
  by_cases runs : machine.status = .running
  · rw [next_of_running runs]
    rcases machine.refuses_or_executes with
      ⟨kind, refuses⟩ | ⟨instruction, -, halted | ⟨after, report, does, becomes⟩⟩ | unnamed
    · obtain ⟨cause, -, becomes⟩ := refuses.becomes
      exact ⟨_, _, _, rfl, becomes⟩
    · exact ⟨countStep machine.registers, _, _, rfl, halted⟩
    · have count := does.count_eq
      exact ⟨countStep after, _, _, count, becomes⟩
    · rw [advanced_of_not_namesPc unnamed]
      exact ⟨_, [], _, rfl, machine.becomes_self⟩
  · rw [next_of_not_running runs]
    exact ⟨_, [], _, rfl, machine.becomes_self⟩

/-- A step leaves the profile as it is, so a machine keeps the one that it was made with. -/
@[simp] theorem profile_next (machine : Machine) : machine.next.profile = machine.profile := by
  obtain ⟨_, _, _, -, becomes⟩ := machine.exists_becomes_next
  exact becomes.profile_eq

@[simp] theorem ram_next (machine : Machine) : machine.next.ram = machine.ram := by
  obtain ⟨_, _, _, -, becomes⟩ := machine.exists_becomes_next
  exact becomes.ram_eq

@[simp] theorem count_next (machine : Machine) :
    machine.next.registers.count = machine.registers.count := by
  obtain ⟨_, _, _, count, becomes⟩ := machine.exists_becomes_next
  rw [becomes.registers_eq, count]

theorem exists_shown_next (machine : Machine) :
    ∃ shown, machine.next.observations = machine.observations ++ shown ∧
      ∀ entry ∈ shown, machine.registers.get? entry.1 = some entry.2 := by
  have silent {registers : Registers} {status : Status}
      (becomes : machine.Becomes registers [] status machine.next) :
      ∃ shown, machine.next.observations = machine.observations ++ shown ∧
        ∀ entry ∈ shown, machine.registers.get? entry.1 = some entry.2 :=
    ⟨[], becomes.observations_eq, List.forall_mem_nil _⟩
  by_cases runs : machine.status = .running
  · rw [next_of_running runs] at silent ⊢
    rcases machine.refuses_or_executes with
      ⟨kind, refuses⟩ | ⟨instruction, -, halted | ⟨after, report, does, becomes⟩⟩ | unnamed
    · obtain ⟨cause, -, becomes⟩ := refuses.becomes
      exact silent becomes
    · exact silent halted
    · refine ⟨report.shown, becomes.observations_eq, fun entry inside => ?_⟩
      rw [does.shown] at inside
      exact Instruction.get?_of_mem_shownFrom inside
    · rw [advanced_of_not_namesPc unnamed] at silent ⊢
      exact silent machine.becomes_self
  · rw [next_of_not_running runs] at silent ⊢
    exact silent machine.becomes_self

theorem status_next_ne_idle (loaded : machine.status ≠ .idle) : machine.next.status ≠ .idle := by
  by_cases runs : machine.status = .running
  · rw [next_of_running runs]
    rcases machine.refuses_or_executes with
      ⟨kind, refuses⟩ | ⟨instruction, -, halted | ⟨after, report, does, becomes⟩⟩ | unnamed
    · obtain ⟨cause, -, becomes⟩ := refuses.becomes
      rw [becomes.status_eq]
      exact nofun
    · rw [halted.status_eq]
      exact nofun
    · rw [becomes.status_eq]
      split
      · exact loaded
      · exact nofun
    · rw [advanced_of_not_namesPc unnamed]
      exact loaded
  · rw [next_of_not_running runs]
    exact loaded

/-- Of the statuses that a loaded machine can have, running is the one without a reason to
stop. -/
theorem stopReason?_eq_none_iff (loaded : machine.status ≠ .idle) :
    machine.stopReason? = none ↔ machine.status = .running := by
  rw [stopReason?_eq]
  cases status : machine.status with
  | idle => exact absurd status loaded
  | running => exact iff_of_true rfl rfl
  | halted => exact iff_of_false nofun nofun
  | faulted fault => exact iff_of_false nofun nofun

/-- A step passes exactly if it can be made and the machine runs before and after it. -/
theorem passes_iff :
    machine.Passes ↔
      machine.status = .running ∧ machine.NamesPc ∧ machine.next.status = .running := by
  rw [Passes]
  by_cases runs : machine.status = .running
  · by_cases names : machine.NamesPc
    · have loaded : machine.next.status ≠ .idle := status_next_ne_idle (by rw [runs]; exact nofun)
      rw [perform_step_of_running runs names, reason?_advanced runs, ← next_of_running runs,
        Answer.reason.injEq, stopReason?_eq_none_iff loaded]
      exact ⟨fun still => ⟨runs, names, still⟩, fun all => all.2.2⟩
    · rw [perform_step_of_not_namesPc runs names]
      exact iff_of_false nofun fun all => names all.2.1
  · rw [perform_step_of_not_running runs]
    refine iff_of_false (fun answers => ?_) fun all => runs all.1
    by_cases idle : machine.status = .idle
    · rw [if_pos idle] at answers
      cases answers
    · rw [if_neg idle, Answer.reason.injEq, stopReason?_eq_none_iff idle] at answers
      exact runs answers

/-- A step that passes leaves the program counter in the memory, for otherwise it would have ended
in a fault. -/
theorem contains_of_passes (passes : machine.Passes) :
    machine.ram.contains machine.next.registers.pc = true := by
  obtain ⟨runs, names, still⟩ := passes_iff.mp passes
  rw [next_of_running runs] at still ⊢
  rcases machine.refuses_or_executes with
    ⟨kind, refuses⟩ | ⟨instruction, -, halted | ⟨after, report, does, becomes⟩⟩ | unnamed
  · obtain ⟨cause, -, becomes⟩ := refuses.becomes
    rw [becomes.status_eq] at still
    cases still
  · rw [halted.status_eq] at still
    cases still
  · rw [becomes.registers_eq]
    by_cases inside : machine.ram.contains after.pc = true
    · exact inside
    · rw [becomes.status_eq, if_neg inside] at still
      cases still
  · exact absurd names unnamed

/-- A machine is **ready** for a step: it has a program, and if it runs then the step can be
made. -/
structure Ready (machine : Machine) : Prop where
  loaded : machine.status ≠ .idle
  names : machine.status = .running → machine.NamesPc

/-- A machine that runs with its program counter in the memory is ready. -/
theorem ready_of_contains (runs : machine.status = .running)
    (inside : machine.ram.contains machine.registers.pc = true) : machine.Ready where
  loaded := by
    rw [runs]
    exact nofun
  names _ := Ram.names_of_contains inside

/-- A machine that has loaded an image is ready, even if it has no memory to run in. -/
theorem ready_load (machine : Machine) (image : List UInt8) : (machine.load image).Ready where
  loaded := nofun
  names _ := .inl (Nat.zero_le _)

/-- A machine that is ready stays so: a step leaves the program counter in the memory, or it stops
the machine. -/
theorem Ready.ready_next (ready : machine.Ready) : machine.next.Ready where
  loaded := status_next_ne_idle ready.loaded
  names still := by
    by_cases runs : machine.status = .running
    · have inside := contains_of_passes (passes_iff.mpr ⟨runs, ready.names runs, still⟩)
      rw [← machine.ram_next] at inside
      exact Ram.names_of_contains inside
    · rw [next_of_not_running runs] at still
      exact absurd still runs

/-- A machine that is not ready cannot make its step: it is idle, or its program counter cannot
be named. -/
theorem step_of_not_ready (ready : ¬ machine.Ready) :
    machine.state = .idle ∧ machine.step = .error .notLoaded ∨
      machine.state = .running ∧ ¬ machine.NamesPc ∧ machine.step = .error (.unnamed {}) := by
  by_cases idle : machine.state = .idle
  · exact .inl ⟨idle, by rw [step, idle]⟩
  · have loaded : machine.status ≠ .idle := fun same => idle (status_eq_idle_iff.mp same)
    obtain ⟨runs, unnamed⟩ := Classical.not_imp.mp fun names => ready ⟨loaded, names⟩
    exact .inr ⟨status_eq_running_iff.mp runs, unnamed, step_of_not_namesPc runs unnamed⟩

theorem Ready.answer_eq (ready : machine.Ready) :
    (machine.perform .step).answer = .reason machine.next.stopReason? := by
  by_cases runs : machine.status = .running
  · rw [perform_step_of_running runs (ready.names runs), reason?_advanced runs,
      next_of_running runs]
  · rw [perform_step_of_not_running runs, next_of_not_running runs, if_neg ready.loaded]

theorem step_of_answer {reason? : Option StopReason}
    (answers : (machine.perform .step).answer = .reason reason?) :
    machine.step = .ok ⟨machine.next, reason?, (machine.perform .step).effects⟩ := by
  rw [next]
  rw [perform] at answers ⊢
  cases made : machine.step with
  | error error =>
      rw [made] at answers
      cases answers
  | ok transition =>
      rw [made] at answers
      cases answers
      rfl

/-! ### A number of steps -/

/-- A number of steps in a session goes on to the iterates of the machine, and its replies are those
of single steps. -/
theorem session_replicate_step (steps : Nat) (machine : Machine) :
    machine.session (List.replicate steps .step) =
      (next^[steps] machine, (List.range steps).map fun k => (next^[k] machine).perform .step) := by
  induction steps generalizing machine with
  | zero => rfl
  | succ steps ih =>
      have rest := ih machine.next
      rw [next] at rest
      simp only [List.replicate_succ, session, rest, Function.iterate_succ_apply,
        List.range_succ_eq_map, List.map_cons, List.map_map]
      rfl

/-- What the first machine of a run has, and what steps preserve, all machines of the run
have. -/
theorem iterate_next {p : Machine → Prop} (keeps : ∀ machine, p machine → p machine.next)
    (start : p machine) (steps : Nat) : p (next^[steps] machine) := by
  induction steps with
  | zero => exact start
  | succ steps ih =>
      rw [Function.iterate_succ_apply']
      exact keeps _ ih

@[simp] theorem count_load (machine : Machine) (image : List UInt8) :
    (machine.load image).registers.count = machine.registers.count :=
  List.length_replicate

@[simp] theorem profile_iterate_next (machine : Machine) (steps : Nat) :
    (next^[steps] machine).profile = machine.profile :=
  iterate_next (p := fun other => other.profile = machine.profile)
    (fun other same => other.profile_next.trans same) rfl steps

@[simp] theorem ram_iterate_next (machine : Machine) (steps : Nat) :
    (next^[steps] machine).ram = machine.ram :=
  iterate_next (p := fun other => other.ram = machine.ram)
    (fun other same => other.ram_next.trans same) rfl steps

@[simp] theorem count_iterate_next (machine : Machine) (steps : Nat) :
    (next^[steps] machine).registers.count = machine.registers.count :=
  iterate_next (p := fun other => other.registers.count = machine.registers.count)
    (fun other same => other.count_next.trans same) rfl steps

/-- A machine that has passed its steps still runs, with the program counter in the memory. -/
theorem runs_iterate_next (runs : machine.status = .running)
    (inside : machine.ram.contains machine.registers.pc = true) {limit : Nat}
    (passes : ∀ k < limit, (next^[k] machine).Passes) {k : Nat} (early : k ≤ limit) :
    (next^[k] machine).status = .running ∧
      machine.ram.contains (next^[k] machine).registers.pc = true := by
  cases k with
  | zero => exact ⟨runs, inside⟩
  | succ k =>
      have passed := passes k early
      have within := contains_of_passes passed
      rw [ram_iterate_next] at within
      rw [Function.iterate_succ_apply']
      exact ⟨(passes_iff.mp passed).2.2, within⟩

theorem Ready.ready_iterate_next (ready : machine.Ready) (steps : Nat) :
    (next^[steps] machine).Ready :=
  Machine.iterate_next (p := Ready) (fun _ => Ready.ready_next) ready steps

/-- A machine that runs behind some steps has passed all of them, for a machine that has stopped
does not run again. -/
theorem Ready.passes_of_status {steps : Nat} (ready : machine.Ready)
    (runs : (next^[steps] machine).status = .running) : ∀ k < steps, (next^[k] machine).Passes := by
  have earlier {k : Nat} (early : k ≤ steps) : (next^[k] machine).status = .running := by
    by_contra stands
    have stays : next^[steps - k] (next^[k] machine) = next^[k] machine :=
      Function.iterate_fixed (next_of_not_running stands) _
    rw [← Function.iterate_add_apply, Nat.sub_add_cancel early] at stays
    exact stands (stays ▸ runs)
  intro k early
  have standing := earlier (Nat.le_of_lt early)
  refine passes_iff.mpr ⟨standing, (ready.ready_iterate_next k).names standing, ?_⟩
  rw [← Function.iterate_succ_apply' next k machine]
  exact earlier early

/-- Steps that are made one after the other lead to the **iterate** of a machine that is ready, so
none of them fails on the way. -/
theorem Ready.stepTimes_eq (ready : machine.Ready) (steps : Nat) :
    machine.stepTimes steps = .ok (next^[steps] machine) := by
  induction steps generalizing machine with
  | zero => rfl
  | succ steps ih =>
      rw [stepTimes, step_of_answer ready.answer_eq]
      exact ih ready.ready_next

/-- A run passes all its steps, or there is a **first one** that does not. Each run of a limited
length is one of the two. -/
theorem Ready.passes_or_stops (ready : machine.Ready) (limit : Nat) :
    (∀ k < limit, (next^[k] machine).Passes) ∨
      ∃ k < limit, ∃ reason, (∀ i < k, (next^[i] machine).Passes) ∧
        (next^[k] machine).Stops reason := by
  induction limit with
  | zero => exact .inl fun k behind => absurd behind (Nat.not_lt_zero k)
  | succ limit ih =>
      rcases ih with all | ⟨k, inside, reason, early, stops⟩
      · have answers := (ready.ready_iterate_next limit).answer_eq
        cases stopped : (next^[limit] machine).next.stopReason? with
        | none =>
            rw [stopped] at answers
            refine .inl fun k inside => ?_
            rcases Nat.lt_succ_iff_lt_or_eq.mp inside with less | rfl
            · exact all k less
            · exact answers
        | some reason =>
            rw [stopped] at answers
            exact .inr ⟨limit, Nat.lt_succ_self limit, reason, all, answers⟩
      · exact .inr ⟨k, Nat.lt_succ_of_lt inside, reason, early, stops⟩

theorem effectsOf_succ (machine : Machine) (steps : Nat) :
    machine.effectsOf (steps + 1) =
      (machine.perform .step).effects :: machine.next.effectsOf steps := by
  simp only [effectsOf, List.range_succ_eq_map, List.map_cons, List.map_map]
  rfl

/-- A run whose steps all pass makes all of them, and their effects follow those from before. -/
theorem runFrom_of_passes {limit : Nat} (passes : ∀ k < limit, (next^[k] machine).Passes)
    (before : List Effects) :
    machine.runFrom limit before =
      .ok ⟨next^[limit] machine, none, .concat (before.reverse ++ machine.effectsOf limit)⟩ := by
  induction limit generalizing machine before with
  | zero =>
      rw [runFrom, effectsOf, List.range_zero, List.map_nil, List.append_nil]
      rfl
  | succ limit ih =>
      have first : machine.step = _ := step_of_answer (passes 0 (Nat.succ_pos limit))
      rw [runFrom, first]
      simp only
      rw [ih fun k inside => passes (k + 1) (Nat.succ_lt_succ inside), effectsOf_succ,
        List.reverse_cons, List.append_assoc]
      rfl

/-- A run ends with the first step that stops, by induction on the steps before it. -/
theorem runFrom_of_stops {limit k : Nat} {reason : StopReason}
    (passes : ∀ i < k, (next^[i] machine).Passes) (stops : (next^[k] machine).Stops reason)
    (inside : k < limit) (before : List Effects) :
    machine.runFrom limit before = .ok ⟨next^[k + 1] machine, some reason,
      .concat (before.reverse ++ machine.effectsOf (k + 1))⟩ := by
  obtain ⟨limit, rfl⟩ := Nat.exists_eq_succ_of_ne_zero (Nat.ne_zero_of_lt inside)
  induction k generalizing machine limit before with
  | zero =>
      have last : machine.step = _ := step_of_answer stops
      rw [runFrom, last, effectsOf_succ]
      simp only
      rw [List.reverse_cons]
      rfl
  | succ k ih =>
      have first : machine.step = _ := step_of_answer (passes 0 (Nat.succ_pos k))
      obtain ⟨limit, rfl⟩ := Nat.exists_eq_succ_of_ne_zero
        (Nat.ne_zero_of_lt (Nat.lt_of_succ_lt_succ inside))
      rw [runFrom, first]
      simp only
      rw [ih (fun i less => passes (i + 1) (Nat.succ_lt_succ less)) stops _ limit
        (Nat.lt_of_succ_lt_succ inside), effectsOf_succ machine, List.reverse_cons,
        List.append_assoc]
      rfl

/-- A limited run whose steps all **pass** makes all of them, and has no reason to stop. Its effects
are those of the steps. -/
theorem runFor_of_passes {limit : Nat} (passes : ∀ k < limit, (next^[k] machine).Passes) :
    machine.runFor limit =
      .ok ⟨next^[limit] machine, none, .concat (machine.effectsOf limit)⟩ :=
  runFrom_of_passes passes []

/-- A limited run ends with the first step that **stops**, for the reason of that step, if the limit
goes so far. -/
theorem runFor_of_stops {limit k : Nat} {reason : StopReason}
    (passes : ∀ i < k, (next^[i] machine).Passes) (stops : (next^[k] machine).Stops reason)
    (inside : k < limit) :
    machine.runFor limit =
      .ok ⟨next^[k + 1] machine, some reason, .concat (machine.effectsOf (k + 1))⟩ :=
  runFrom_of_stops passes stops inside []

/-- A run that passes up to a step which stops the machine ends with it, under every limit that
goes so far. -/
theorem exists_transition_of_stop {k : Nat} {reason : StopReason}
    (ready : machine.Ready) (passes : ∀ i < k, (next^[i] machine).Passes)
    (stopped : (next^[k + 1] machine).stopReason? = some reason) :
    ∃ transition, (∀ limit, k < limit → machine.runFor limit = .ok transition) ∧
      transition.machine = next^[k + 1] machine ∧
      transition.reason? = transition.machine.stopReason? := by
  have stops : (next^[k] machine).Stops reason := by
    rw [Stops, (ready.ready_iterate_next k).answer_eq, ← stopped, Function.iterate_succ_apply']
  exact ⟨_, fun limit inside => runFor_of_stops passes stops inside, rfl, stopped.symm⟩

/-- A limited run that has a reason to stop is the run to the first step that stops, under every
limit that goes so far. -/
theorem runFor_of_reason {limit k : Nat} {reason : StopReason} {transition : Transition}
    (passes : ∀ i < k, (next^[i] machine).Passes) (stops : (next^[k] machine).Stops reason)
    (made : machine.runFor limit = .ok transition) (stopped : transition.reason? ≠ none)
    {other : Nat} (inside : k < other) : machine.runFor other = .ok transition := by
  by_cases reached : k < limit
  · rw [← made, runFor_of_stops passes stops inside, runFor_of_stops passes stops reached]
  · have short (i : Nat) (early : i < limit) : (next^[i] machine).Passes := passes i (by omega)
    rw [runFor_of_passes short] at made
    cases made
    exact absurd rfl stopped

/-- A limited run that is made goes on to an iterate of the machine, with the effects of so many
steps. -/
theorem exists_iterate_of_runFor {limit : Nat} {transition : Transition}
    (made : machine.runFor limit = .ok transition) :
    ∃ steps, transition.machine = next^[steps] machine ∧
      transition.effects = .concat (machine.effectsOf steps) := by
  by_cases ready : machine.Ready
  · rcases ready.passes_or_stops limit with passes | ⟨k, inside, reason, passes, stops⟩
    · rw [runFor_of_passes passes] at made
      cases made
      exact ⟨limit, rfl, rfl⟩
    · rw [runFor_of_stops passes stops inside] at made
      cases made
      exact ⟨k + 1, rfl, rfl⟩
  · -- The machine cannot make a step, so this run had none to make.
    cases limit with
    | zero =>
        cases made
        exact ⟨0, rfl, rfl⟩
    | succ limit =>
        rw [runFor, runFrom] at made
        rcases step_of_not_ready ready with ⟨-, failed⟩ | ⟨-, -, failed⟩
        · rw [failed] at made
          cases made
        · rw [failed] at made
          cases made

/-- Steps of a session that all have no reason to stop are steps that pass, and the other way
round. -/
theorem forall_replies_iff {steps : Nat} :
    (∀ reply ∈ (machine.session (List.replicate steps .step)).2, reply.answer = .reason none) ↔
      ∀ k < steps, (next^[k] machine).Passes := by
  rw [session_replicate_step, List.forall_mem_map]
  simp only [List.mem_range]
  exact Iff.rfl

/-! ### Machines that come back -/

/-- A machine that passes until it **returns** to where it was never stops: from there on it does
again what it did. -/
theorem passes_of_returns (same : Machine → Machine → Prop)
    (keeps : ∀ one other, same one other → same one.next other.next)
    (tells : ∀ one other, same one other → one.Passes → other.Passes) {i j : Nat} (before : i < j)
    (returns : same (next^[i] machine) (next^[j] machine))
    (passes : ∀ k < j, (next^[k] machine).Passes) (k : Nat) : (next^[k] machine).Passes := by
  have later (d : Nat) : same (next^[d + i] machine) (next^[d + j] machine) := by
    induction d with
    | zero => rwa [Nat.zero_add, Nat.zero_add]
    | succ d ih =>
        rw [Nat.add_right_comm, Nat.add_right_comm d 1 j, Function.iterate_succ_apply',
          Function.iterate_succ_apply']
        exact keeps _ _ ih
  induction k using Nat.strongRecOn with
  | ind k ih =>
      by_cases early : k < j
      · exact passes k early
      · have again := later (k - j)
        rw [Nat.sub_add_cancel (Nat.le_of_not_lt early)] at again
        exact tells _ _ again (ih _ (by omega))

end ByteMachine.Machine
