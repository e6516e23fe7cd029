import Mathlib.Data.List.Forall2
import ByteMachine.Machine.Session
import ByteMachine.Proofs.Machine.Step

/-!
# Tracing does not disturb

A machine writes to its trace in the middle of a step and on the way into a fault, and it never
reads what it has written. So the trace can be taken away: what is left of a machine without it, the
machine `untraced`, goes through every step, run and session as the machine itself does, and nothing
that it answers or does to its surroundings is lost, but for the trace when that is asked for.

Two machines that differ in nothing but their traces have the same `untraced` machine. That is the
whole comparison of two sessions: each of them is compared with the one that both leave behind.

## Main results

* `advance_untraced`, `runFrom_untraced`: steps and runs of a machine without its trace.
* `untraced_perform`: an action on a machine without its trace.
* `indistinguishable_replies`: two sessions that differ in tracing alone.
-/

namespace ByteMachine

namespace Machine

/-- The machine **without its trace**, and with tracing off. All else stays: registers, memory,
status and observations. -/
def untraced (machine : Machine) : Machine :=
  { machine with tracing := false, traced := [] }

/-- Two machines are the **same but for the trace**: whether they trace and what they have traced
may differ, and nothing else. -/
structure SameButTrace (first second : Machine) : Prop where
  profile_eq : first.profile = second.profile
  registers_eq : first.registers = second.registers
  ram_eq : first.ram = second.ram
  state_eq : first.state = second.state
  fault_eq : first.fault = second.fault
  shown_eq : first.shown = second.shown

/-- Two actions are the **same but for tracing**: they turn tracing on or off, or are one action. -/
inductive Action.SameButTracing : Action → Action → Prop
  | trace (enabled other : Bool) : SameButTracing (.trace enabled) (.trace other)
  | same (action : Action) : SameButTracing action action

/-- Two replies to an action are **indistinguishable**: they print and log the same, they leave
machines that are the same but for the trace, and they answer the same unless it is the trace that
was asked for. -/
structure Indistinguishable (action : Action) (reply other : Reply) : Prop where
  machine : SameButTrace reply.machine other.machine
  effects_eq : reply.effects = other.effects
  answer_eq : action ≠ .traceOutput → reply.answer = other.answer

variable {machine first second : Machine}

/-! ### Machines without their trace -/

/-- Machines are the same but for the trace exactly if they are the same without it. -/
theorem sameButTrace_iff : SameButTrace first second ↔ first.untraced = second.untraced := by
  constructor
  · rintro ⟨profile, registers, ram, state, fault, shown⟩
    rw [untraced, untraced, profile, registers, ram, state, fault, shown]
  · intro same
    obtain ⟨profile, registers, ram, state, fault, shown, -⟩ := Machine.mk.inj same
    exact ⟨profile, registers, ram, state, fault, shown⟩

@[simp] theorem untraced_record (machine : Machine) (entry : TraceEntry) :
    (machine.record entry).untraced = machine.untraced := by
  rw [record]
  split <;> rfl

@[simp] theorem record_untraced (machine : Machine) (entry : TraceEntry) :
    machine.untraced.record entry = machine.untraced :=
  rfl

theorem observe_untraced (machine : Machine) (report : Report) :
    machine.untraced.observe report = (machine.observe report).untraced := by
  cases report <;> rfl

end Machine

/-- The transition to a machine **without its trace**, with the same effects. -/
def Transition.untraced (transition : Transition) : Transition :=
  { transition with machine := transition.machine.untraced }

namespace Machine

variable {machine first second : Machine}

/-! ### Steps and runs -/

/-- A machine stops with a fault as it does without its trace, whose last entry is the fault. -/
theorem stopWith_untraced (machine : Machine) (pc : Int) (cause : FaultCause) (before : Effects) :
    machine.untraced.stopWith pc cause before = (machine.stopWith pc cause before).untraced := by
  have left := machine.untraced_record (.fault cause)
  rw [stopWith, stopWith, record_untraced, ← left]
  rfl

/-- **One step** of a machine without its trace is its step, with the trace taken away. The trace is
written, and it is never read. -/
theorem advance_untraced (machine : Machine) :
    machine.untraced.advance = machine.advance.map Transition.untraced := by
  have fetches : machine.untraced.ram.fetch machine.untraced.profile machine.untraced.registers.pc =
      machine.ram.fetch machine.profile machine.registers.pc := rfl
  rw [advance, advance, fetches]
  cases fetched : machine.ram.fetch machine.profile machine.registers.pc with
  | error error =>
      have place : machine.untraced.registers.pc = machine.registers.pc := rfl
      simp only [place]
      cases FaultCause.ofFetch machine.registers.pc error with
      | error tooLong => rfl
      | ok cause => exact congrArg Except.ok (machine.stopWith_untraced ..)
  | ok instruction =>
      -- From here on only the machine counts that has recorded the instruction.
      have left := machine.untraced_record (.instruction machine.registers.pc instruction
        machine.registers)
      have place := machine.registers_record (.instruction machine.registers.pc instruction
        machine.registers)
      simp only [record_untraced, ← left]
      generalize machine.record _ = middle at place ⊢
      rw [← place]
      have executes : instruction.execute middle.untraced.ram middle.untraced.registers =
          instruction.execute middle.ram middle.registers := rfl
      rw [executes]
      cases executed : instruction.execute middle.ram middle.registers with
      | halt => rfl
      | invalidRegister register => exact congrArg Except.ok (middle.stopWith_untraced ..)
      | noTarget error =>
          cases error with
          | outside named => exact congrArg Except.ok (middle.stopWith_untraced ..)
          | unnamed tooLong => rfl
      | next registers report =>
          simp only [observe_untraced]
          by_cases inside : (middle.observe report).ram.contains registers.pc = true
          · have inside' : (middle.observe report).untraced.ram.contains registers.pc = true :=
              inside
            rw [if_pos inside, if_pos inside']
            rfl
          · have inside' : ¬ (middle.observe report).untraced.ram.contains registers.pc = true :=
              inside
            rw [if_neg inside, if_neg inside']
            exact congrArg Except.ok (stopWith_untraced
              { middle.observe report with registers := countStep registers } ..)

theorem step_untraced (machine : Machine) :
    machine.untraced.step = machine.step.map Transition.untraced := by
  have state : machine.untraced.state = machine.state := rfl
  rw [step, step, state]
  cases machine.state with
  | running =>
      simp only [machine.advance_untraced]
      cases machine.advance <;> rfl
  | _ => rfl

/-- **Any number of steps** of a machine without its trace, by induction on their number: each of
them is made without the trace. -/
theorem runFrom_untraced (limit : Nat) (machine : Machine) (before : List Effects) :
    machine.untraced.runFrom limit before =
      (machine.runFrom limit before).map Transition.untraced := by
  induction limit generalizing machine before with
  | zero => rfl
  | succ limit ih =>
      rw [runFrom, runFrom, step_untraced]
      cases made : machine.step with
      | error error => rfl
      | ok transition =>
          obtain ⟨middle, reason?, effects⟩ := transition
          cases reason? with
          | none => exact ih middle (effects :: before)
          | some reason => rfl

/-- A run of a machine without its trace is its run, with the trace taken away. -/
theorem run_untraced (machine : Machine) :
    machine.untraced.run = machine.run.map Transition.untraced :=
  runFrom_untraced ..

/-! ### Sessions -/

/-- The reply with a machine **without its trace**, and with the same answer. -/
def Reply.untraced (reply : Reply) : Reply :=
  { reply with machine := reply.machine.untraced }

/-- The reply to steps of a machine without its trace is that to its steps, with the trace taken
away. -/
theorem reply_untraced (machine : Machine) (outcome : Except StepError Transition) :
    machine.untraced.reply (outcome.map Transition.untraced) =
      (machine.reply outcome).untraced := by
  cases outcome <;> rfl

/-- **Any action** on a machine without its trace has the reply that it has on the machine, but for
the trace. -/
theorem untraced_perform (machine : Machine) {action : Action} (other : action ≠ .traceOutput) :
    (machine.untraced.perform action).untraced = (machine.perform action).untraced := by
  cases action with
  | step =>
      rw [perform, perform, step_untraced, reply_untraced]
      rfl
  | run limit =>
      cases limit with
      | none =>
          rw [perform, perform, run_untraced, reply_untraced]
          rfl
      | some limit =>
          rw [perform, perform, runFor, runFor, runFrom_untraced, reply_untraced]
          rfl
  | loadFile contents => cases contents <;> rfl
  | traceOutput => exact absurd rfl other
  | _ => rfl

/-- One action on two machines that are the same but for the trace: they cannot be told apart by
it. -/
theorem SameButTrace.perform (same : SameButTrace first second) {action other : Action}
    (alike : action.SameButTracing other) :
    Indistinguishable action (first.perform action) (second.perform other) := by
  cases alike with
  | trace enabled other =>
      exact ⟨⟨same.profile_eq, same.registers_eq, same.ram_eq, same.state_eq, same.fault_eq,
        same.shown_eq⟩, rfl, fun _ => rfl⟩
  | same action =>
      by_cases asked : action = .traceOutput
      · subst asked
        exact ⟨same, rfl, fun other => absurd rfl other⟩
      · -- Both replies are those of the one machine that the two leave without their traces.
        have both : (first.perform action).untraced = (second.perform action).untraced := by
          rw [← untraced_perform first asked, sameButTrace_iff.mp same,
            untraced_perform second asked]
        obtain ⟨machines, answers, effects⟩ := Reply.mk.inj both
        exact ⟨sameButTrace_iff.mpr machines, effects, fun _ => answers⟩

/-- **Tracing is transparent.** Take two machines that are the same but for the trace, and ask the
same of them in the same order, but that tracing may be turned on for the one where it is turned off
for the other. Each action is replied to on both, and the replies are indistinguishable: the same is
printed and logged, the same is answered unless it is the trace that is asked for, and the two
machines are the same but for the trace from there on. -/
theorem indistinguishable_replies (same : SameButTrace first second) {actions others : List Action}
    (alike : List.Forall₂ Action.SameButTracing actions others) :
    SameButTrace (first.session actions).1 (second.session others).1 ∧
      ∀ (i : Nat) (action : Action), actions[i]? = some action → ∃ reply other,
        (first.session actions).2[i]? = some reply ∧ (second.session others).2[i]? = some other ∧
          Indistinguishable action reply other := by
  induction alike generalizing first second with
  | nil => exact ⟨same, fun i action found => by simp at found⟩
  | @cons action other actions others head _ ih =>
      have first := same.perform head
      obtain ⟨final, replies⟩ := ih first.machine
      refine ⟨final, fun i asked found => ?_⟩
      cases i with
      | zero =>
          obtain rfl : action = asked := Option.some.inj found
          exact ⟨_, _, rfl, rfl, first⟩
      | succ i => exact replies i asked found

/-- A machine that traces into its fault and one that does not tell the same. -/
theorem exists_indistinguishable_fault :
    let machine := zeroed .resolved 1 3
    let actions : List Action := [.load [Mnemonic.display.opcode, 0, 0xFF], .trace true, .run none,
      .display, .traceOutput]
    let others : List Action := [.load [Mnemonic.display.opcode, 0, 0xFF], .trace false, .run none,
      .display, .traceOutput]
    SameButTrace (machine.trace true) machine ∧
      List.Forall₂ Action.SameButTracing actions others ∧
      ((machine.trace true).session actions).1.traceEntries ≠ [] ∧
      (machine.session others).1.traceEntries = [] ∧
      SameButTrace ((machine.trace true).session actions).1 (machine.session others).1 := by
  intro machine actions others
  have same : SameButTrace (machine.trace true) machine :=
    ⟨rfl, rfl, rfl, rfl, rfl, rfl⟩
  have alike : List.Forall₂ Action.SameButTracing actions others :=
    .cons (.same _) (.cons (.trace true false) (.cons (.same _) (.cons (.same _)
      (.cons (.same _) .nil))))
  exact ⟨same, alike, by decide, by decide, (indistinguishable_replies same alike).1⟩

end Machine

end ByteMachine
