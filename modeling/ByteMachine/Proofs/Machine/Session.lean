import ByteMachine.Proofs.Machine.Run

/-!
# Sessions of the machine

Whatever is asked of a machine, one of six things happens to it: nothing, some steps, a load, a
reset, tracing turned on or off, or something done to its registers or its memory from outside. So
a property holds all through a session if it survives each of them, and there is one place where
the actions are gone through (`holds_perform`).

## Main results

* `holds_perform`: a property survives an action.
* `session_concat`: a session and one action more.
* `holds_session`, `holds_replies`: it survives a session, and holds behind each of its actions.
-/

namespace ByteMachine.Machine

variable {machine : Machine}

/-- The reply to a run leaves an iterate of the machine, whether the run was limited or not. -/
theorem exists_iterate_of_perform_run (machine : Machine) (limit : Option Int) :
    ∃ steps, (machine.perform (.run limit)).machine = next^[steps] machine := by
  have replied (outcome : Except StepError Transition)
      (made : ∀ transition, outcome = .ok transition →
        ∃ steps, transition.machine = next^[steps] machine) :
      ∃ steps, (machine.reply outcome).machine = next^[steps] machine := by
    cases outcome with
    | error _ => exact ⟨0, rfl⟩
    | ok transition => exact made transition rfl
  have goes (limit : Nat) (transition : Transition) (made : machine.runFor limit = .ok transition) :
      ∃ steps, transition.machine = next^[steps] machine := by
    obtain ⟨steps, reached, -⟩ := exists_iterate_of_runFor made
    exact ⟨steps, reached⟩
  cases limit with
  | none => exact replied machine.run (goes _)
  | some limit => exact replied (machine.runFor limit.toNat) (goes _)

section Survival

variable {p : Machine → Prop}
  (next : ∀ machine, p machine → p machine.next)
  (load : ∀ machine image, p machine → p (machine.load image))
  (reset : ∀ machine, p machine → p machine.reset)
  (trace : ∀ machine enabled, p machine → p (machine.trace enabled))
  (registers : ∀ machine action, p machine →
    p { machine with registers := (machine.registers.perform action).1 })
  (ram : ∀ machine action, p machine → p { machine with ram := (machine.ram.perform action).1 })

include next load reset trace registers ram

/-- A property survives an action if it survives what can happen to a machine: steps, loads and
accesses from outside. -/
theorem holds_perform (holds : p machine) (action : Action) :
    p (machine.perform action).machine := by
  cases action with
  | load image => exact load machine image holds
  | loadFile contents =>
      cases contents with
      | ok image => exact load machine image holds
      | error _ => exact holds
  | step => exact next machine holds
  | run limit =>
      obtain ⟨steps, reached⟩ := machine.exists_iterate_of_perform_run limit
      rw [reached]
      exact iterate_next next holds steps
  | reset => exact reset machine holds
  | trace enabled => exact trace machine enabled holds
  | registers action => exact registers machine action holds
  | ram action => exact ram machine action holds
  | _ => exact holds

end Survival

/-- One action more is performed on the machine that the **session** has left, and its reply is the
last one. -/
theorem session_concat (machine : Machine) (actions : List Action) (action : Action) :
    machine.session (actions ++ [action]) =
      (((machine.session actions).1.perform action).machine,
        (machine.session actions).2 ++ [(machine.session actions).1.perform action]) := by
  induction actions generalizing machine with
  | nil => rfl
  | cons first actions ih =>
      rw [List.cons_append, session, session, ih]
      rfl

theorem length_replies (machine : Machine) (actions : List Action) :
    (machine.session actions).2.length = actions.length := by
  induction actions generalizing machine with
  | nil => rfl
  | cons action actions ih => exact congrArg Nat.succ (ih _)

/-- What survives every action survives a **session**, by induction on its actions. -/
theorem holds_session {p : Machine → Prop}
    (survives : ∀ machine action, p machine → p (machine.perform action).machine)
    (holds : p machine) (actions : List Action) : p (machine.session actions).1 := by
  induction actions generalizing machine with
  | nil => exact holds
  | cons action actions ih => exact ih (survives machine action holds)

/-- What survives every action holds behind **each action** of a session. -/
theorem holds_replies {p : Machine → Prop}
    (survives : ∀ machine action, p machine → p (machine.perform action).machine)
    (holds : p machine) (actions : List Action) :
    ∀ reply ∈ (machine.session actions).2, p reply.machine := by
  induction actions generalizing machine with
  | nil =>
      intro reply inside
      cases inside
  | cons action actions ih =>
      have first := survives machine action holds
      exact List.forall_mem_cons.mpr ⟨first, ih first⟩

end ByteMachine.Machine
