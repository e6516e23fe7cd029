import ByteMachine.Proofs.Machine.Session

/-!
# Machines that have stopped

A machine that has halted or faulted has come to its end. Only a load and a reset take it back from
there (`Action.Revives`). Whatever else is asked of it, its status stays, the fault included, and
nothing is added to what it has shown or traced. Its registers and its memory may still be written
over from outside, and tracing may be turned on, but no step looks at any of that: a step and a run
leave a stopped machine exactly as they find it, and tell the reason that it had from the first.

A run whose limit allows for no step makes none that could tell a reason, but it leaves the machine
as it is like any other.

## Main results

* `perform_of_goesOn`: a step or a run of a machine that has stopped.
* `SameEnd.perform`: any action that does not revive it.
* `stopped_session`: all actions of a session, in any order.
-/

namespace ByteMachine

/-- An action that makes even a stopped machine **begin anew**: it loads an image, from a file that
could be read or from elsewhere, or resets the machine. -/
def Machine.Action.Revives : Action → Prop
  | .load _ => True
  | .loadFile (.ok _) => True
  | .reset => True
  | _ => False

/-- An action that asks a machine to go on: a step, or a run that may make one. -/
def Machine.Action.GoesOn : Action → Prop
  | .step => True
  | .run none => True
  | .run (some limit) => 0 < limit
  | _ => False

/-- No action on a memory prints anything, dumps included, whose text is returned. -/
theorem Ram.printed_perform (ram : Ram) (action : Ram.Action) :
    (ram.perform action).2.2.printed = [] := by
  cases action with
  | read address =>
      rw [perform]
      split <;> rfl
  | write address value =>
      rw [perform]
      split <;> rfl
  | hexdump width =>
      rw [perform]
      split <;> rfl
  | _ => rfl

namespace Machine

/-- Two machines have come to the **same end**: they have one state and one fault, and so the same
reason to stop, and have shown and traced the same. -/
structure SameEnd (first second : Machine) : Prop where
  state_eq : second.state = first.state
  fault_eq : second.fault = first.fault
  observations_eq : second.observations = first.observations
  traceLines_eq : second.traceLines = first.traceLines

variable {machine middle last : Machine} {reason : StopReason}

/-! ### Steps and runs -/

theorem status_ne_of_stopped (stopped : machine.stopReason? = some reason) :
    machine.status ≠ .idle ∧ machine.status ≠ .running := by
  rw [stopReason?_eq] at stopped
  constructor
  · intro idle
    rw [idle] at stopped
    cases stopped
  · intro runs
    rw [runs] at stopped
    cases stopped

/-- A step of a machine that has stopped leaves it as it is, and tells why it has. -/
theorem step_of_stopReason (stopped : machine.stopReason? = some reason) :
    machine.step = .ok ⟨machine, some reason, {}⟩ := by
  obtain ⟨loaded, stands⟩ := status_ne_of_stopped stopped
  rw [step_of_stopped loaded stands, stopped]

/-- A run of a machine that has stopped ends with its first step, which changes nothing. -/
theorem runFor_of_stopReason (stopped : machine.stopReason? = some reason) {limit : Nat}
    (positive : 0 < limit) : machine.runFor limit = .ok ⟨machine, some reason, {}⟩ := by
  obtain ⟨limit, rfl⟩ := Nat.exists_eq_succ_of_ne_zero (Nat.ne_of_gt positive)
  rw [runFor, runFrom, step_of_stopReason stopped]
  rfl

/-- A machine that has stopped and is asked to **go on** stays as it is, and tells why it has
stopped. -/
theorem perform_of_goesOn (stopped : machine.stopReason? = some reason) {action : Action}
    (goesOn : action.GoesOn) :
    machine.perform action = ⟨machine, .reason (some reason), {}⟩ := by
  cases action with
  | step =>
      rw [perform, step_of_stopReason stopped]
      rfl
  | run limit =>
      cases limit with
      | none =>
          rw [perform, run, runFor_of_stopReason stopped (Nat.succ_pos _)]
          rfl
      | some limit =>
          have positive : 0 < limit := goesOn
          rw [perform, runFor_of_stopReason stopped (by omega)]
          rfl
  | _ => cases goesOn

/-- A run whose limit allows for no step does nothing and gives no reason. -/
theorem perform_run_of_nonpos (machine : Machine) {limit : Int} (short : limit ≤ 0) :
    machine.perform (.run (some limit)) = ⟨machine, .reason none, {}⟩ := by
  rw [perform, Int.toNat_of_nonpos short]
  rfl

/-! ### All actions -/

namespace SameEnd

theorem refl (machine : Machine) : SameEnd machine machine :=
  ⟨rfl, rfl, rfl, rfl⟩

/-- A machine that is led to the same end twice is at the end from which it started. -/
theorem trans (one : SameEnd machine middle) (two : SameEnd middle last) : SameEnd machine last :=
  ⟨two.state_eq.trans one.state_eq, two.fault_eq.trans one.fault_eq,
    two.observations_eq.trans one.observations_eq, two.traceLines_eq.trans one.traceLines_eq⟩

/-- The reason to stop is that of the end, with the fault if there is one. -/
theorem stopReason?_eq (same : SameEnd machine last) : last.stopReason? = machine.stopReason? :=
  congrArg CpuState.stopReason? same.state_eq

/-- An action that does not revive a machine leaves it **at its end**, and prints nothing. Registers
and memory may still be changed from outside. -/
theorem perform (stopped : machine.stopReason? = some reason) {action : Action}
    (spares : ¬ action.Revives) :
    SameEnd machine (machine.perform action).machine ∧
      (machine.perform action).effects.printed = [] := by
  cases action with
  | load _ => exact absurd trivial spares
  | loadFile contents =>
      cases contents with
      | ok _ => exact absurd trivial spares
      | error _ => exact ⟨refl machine, rfl⟩
  | step =>
      have goesOn : Action.step.GoesOn := trivial
      rw [perform_of_goesOn stopped goesOn]
      exact ⟨refl machine, rfl⟩
  | run limit =>
      by_cases goesOn : (Action.run limit).GoesOn
      · rw [perform_of_goesOn stopped goesOn]
        exact ⟨refl machine, rfl⟩
      · -- The limit allows for no step, so the run is over before it begins.
        cases limit with
        | none => exact absurd trivial goesOn
        | some limit =>
            rw [machine.perform_run_of_nonpos (Int.not_lt.mp goesOn)]
            exact ⟨refl machine, rfl⟩
  | reset => exact absurd trivial spares
  | ram action => exact ⟨⟨rfl, rfl, rfl, rfl⟩, machine.ram.printed_perform action⟩
  | _ => exact ⟨⟨rfl, rfl, rfl, rfl⟩, rfl⟩

/-- A session that does not revive a machine leaves it at its end with each of its actions, and
none of them prints anything. -/
theorem session (stopped : machine.stopReason? = some reason) {actions : List Action}
    (spared : ∀ action ∈ actions, ¬ action.Revives) :
    SameEnd machine (machine.session actions).1 ∧
      ∀ reply ∈ (machine.session actions).2,
        SameEnd machine reply.machine ∧ reply.effects.printed = [] := by
  induction actions generalizing machine with
  | nil => exact ⟨refl machine, List.forall_mem_nil _⟩
  | cons action actions ih =>
      obtain ⟨spares, spared⟩ := List.forall_mem_cons.mp spared
      obtain ⟨first, silent⟩ := perform stopped spares
      obtain ⟨final, replies⟩ := ih (first.stopReason?_eq.trans stopped) spared
      refine ⟨first.trans final, List.forall_mem_cons.mpr ⟨⟨first, silent⟩, ?_⟩⟩
      exact fun reply inside => ⟨first.trans (replies reply inside).1, (replies reply inside).2⟩

end SameEnd

/-- **A machine that has stopped stays stopped.** Whatever is asked of it but a load or a reset, in
any order and with any arguments: after each action it has the state, the fault, the observations
and the trace that it had, and the same reason to stop, and nothing has been printed. And wherever a
step or a run stands among the actions, with its program counter, its registers and its memory
written over or not, it tells that reason and changes nothing at all; only a run with a limit that
allows for no step has no reason to tell. -/
theorem stopped_session (machine : Machine) {reason : StopReason}
    (stopped : machine.stopReason? = some reason) (actions : List Action)
    (spared : ∀ action ∈ actions, ¬ action.Revives) :
    (∀ reply ∈ (machine.session actions).2, SameEnd machine reply.machine ∧
      reply.machine.stopReason? = some reason ∧ reply.effects.printed = []) ∧
    (SameEnd machine (machine.session actions).1 ∧
      (machine.session actions).1.stopReason? = some reason) ∧
    ∀ front action back, actions = front ++ action :: back →
      let before := (machine.session front).1
      (action.GoesOn → before.perform action = ⟨before, .reason (some reason), {}⟩) ∧
        ∀ limit ≤ 0, action = .run (some limit) →
          before.perform action = ⟨before, .reason none, {}⟩ := by
  obtain ⟨final, replies⟩ := SameEnd.session stopped spared
  refine ⟨fun reply inside => ?_, ⟨final, final.stopReason?_eq.trans stopped⟩, ?_⟩
  · obtain ⟨same, silent⟩ := replies reply inside
    exact ⟨same, same.stopReason?_eq.trans stopped, silent⟩
  · rintro front action back rfl before
    have early : ∀ other ∈ front, ¬ other.Revives :=
      fun other inside => spared other (List.mem_append_left _ inside)
    have reached := (SameEnd.session stopped early).1
    refine ⟨perform_of_goesOn (reached.stopReason?_eq.trans stopped), ?_⟩
    rintro limit short rfl
    exact before.perform_run_of_nonpos short

/-- A machine that has faulted stays faulted when it is sent back to its beginning, with another
program written into its memory and tracing on. -/
theorem exists_stopped_session :
    let machine := ((zeroed .resolved 1 3).session
      [.load [Mnemonic.display.opcode, 0, 0xFF], .trace true, .run none]).1
    let actions : List Action := [.registers (.setPc 0), .ram (.write 0 0), .registers (.write 0 7),
      .step, .trace false, .run none, .run (some 5), .loadFile (.error ⟨.notFound, []⟩)]
    (machine.stopReason? = some .fault ∧ ∀ action ∈ actions, ¬ action.Revives) ∧
      (machine.session actions).1.ram ≠ machine.ram ∧
      (machine.session actions).1.fault = machine.fault ∧
      ∀ reply ∈ (machine.session actions).2, SameEnd machine reply.machine ∧
        reply.machine.stopReason? = some .fault ∧ reply.effects.printed = [] := by
  intro machine actions
  have stopped : machine.stopReason? = some .fault := by decide
  have spared : ∀ action ∈ actions, ¬ action.Revives := by
    simp [actions, Action.Revives]
  obtain ⟨replies, ⟨final, -⟩, -⟩ := stopped_session machine stopped actions spared
  exact ⟨⟨stopped, spared⟩, by decide, final.fault_eq, replies⟩

end Machine

end ByteMachine
