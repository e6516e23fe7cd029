import ByteMachine.Proofs.Machine.Integrity
import ByteMachine.Proofs.Machine.Stopped
import ByteMachine.Proofs.Machine.TraceRecord

/-!
# What is printed and what is kept

A machine that shows a register does so twice: it prints a line, and it keeps the register and the
value among its observations. What is printed is gone from the machine, and what is kept is given up
at the next load or reset. Between two of these the lines and the observations are one record, in
the same order, whatever else is done to the machine and however its runs end.

What one step shows can be read off the machine before it (`showing`): the value of a register, if a
complete display of a register that exists stands at the program counter, and nothing otherwise.
That the step may lead out of the memory afterwards makes no difference.

## Main results

* `observations_next`, `printed_step`: what one step keeps and what it prints.
* `Tells.perform`: one action that is neither a load nor a reset.
* `printed_since_revived`: the printed text of a session by what is kept at its end.
* `printed_is_observed`: all of it, for a machine that has been made.
-/

namespace ByteMachine

/-- Whether an action makes a machine begin anew can be worked out: loads and resets do. -/
instance Machine.Action.decidableRevives : (action : Action) → Decidable action.Revives
  | .load _ => isTrue trivial
  | .loadFile (.ok _) => isTrue trivial
  | .reset => isTrue trivial
  | .loadFile (.error _) => isFalse id
  | .step => isFalse id
  | .run _ => isFalse id
  | .trace _ => isFalse id
  | .traceOutput => isFalse id
  | .stopReason => isFalse id
  | .display => isFalse id
  | .registers _ => isFalse id
  | .ram _ => isFalse id

/-- The lines of observations and then of others are the lines of both, in that order. -/
theorem linesOf_append (first second : List (UInt8 × UInt8)) :
    linesOf (first ++ second) = linesOf first ++ linesOf second :=
  List.flatMap_append ..

/-- An instruction that needs a register shows none. `DPR`, which shows one, needs none. -/
theorem Instruction.shownFrom_eq_nil {instruction : Instruction} {register : UInt8}
    (needed : register ∈ instruction.registersNeeded) (registers : Registers) :
    instruction.shownFrom registers = [] := by
  cases instruction with
  | display _ => cases needed
  | _ => rfl

namespace Machine

/-- What a step **shows**: what the instruction that it meets does, if it meets one. -/
def showing (machine : Machine) : List (UInt8 × UInt8) :=
  machine.met?.toList.flatMap fun instruction => instruction.shownFrom machine.registers

/-- The replies **since** a machine was last made to begin anew, or from the first one on. -/
def sinceRevived (actions : List Action) (replies : List Reply) : List Reply :=
  ((actions.zip replies).reverse.takeWhile fun entry => ¬ entry.1.Revives).reverse.map Prod.snd

/-- A reply **tells** what it keeps: it prints the lines of the observations that it adds. -/
def Tells (machine : Machine) (reply : Reply) : Prop :=
  ∃ shown, reply.machine.observations = machine.observations ++ shown ∧
    reply.effects.printed = linesOf shown

variable {machine : Machine} {instruction : Instruction} {action : Action}

/-! ### One step -/

theorem showing_of_not_running (stands : machine.status ≠ .running) : machine.showing = [] := by
  rw [showing, met?, if_neg stands]
  rfl

theorem showing_of_meets (runs : machine.status = .running) (meets : machine.Meets instruction) :
    machine.showing = instruction.shownFrom machine.registers := by
  rw [showing, met?_eq_some_iff.mpr ⟨runs, meets⟩]
  exact List.append_nil _

/-- One step of a machine that runs adds what it shows, and nothing else, however it ends. -/
theorem exists_becomes_showing (runs : machine.status = .running) :
    ∃ registers status,
      machine.Becomes registers machine.showing status machine.advanced.machine := by
  cases fetched : machine.ram.fetch machine.profile machine.registers.pc with
  | error error =>
      have nothing : machine.showing = [] := by
        rw [showing, met?, if_pos runs, fetched]
        rfl
      rw [nothing]
      by_cases names : machine.NamesPc
      · obtain ⟨cause, causes⟩ := names.exists_ofFetch fetched
        exact ⟨_, _, advance_of_fetch_error fetched causes⟩
      · rw [advanced_of_not_namesPc names]
        exact ⟨_, _, machine.becomes_self⟩
  | ok instruction =>
      rw [showing_of_meets runs (Ram.fetch_eq_ok_iff.mp fetched)]
      have outcome := Instruction.outcome_execute machine.ram machine.registers instruction
      generalize executed : instruction.execute machine.ram machine.registers = execution at outcome
      cases outcome with
      | halts exits =>
          subst exits
          exact ⟨_, _, advance_of_halt fetched executed⟩
      | refused first =>
          rw [Instruction.shownFrom_eq_nil (List.mem_of_find?_eq_some first)]
          exact ⟨_, _, advance_of_invalidRegister fetched executed⟩
      | astray jumps _ =>
          subst jumps
          obtain ⟨named, names⟩ :=
            Meets.exists_named_of_noTarget (Ram.fetch_eq_ok_iff.mp fetched) executed
          exact ⟨_, _, advance_of_noTarget fetched executed names⟩
      | done _ _ _ does =>
          rw [← does.shown]
          exact ⟨_, _, advance_of_next fetched executed⟩

/-- A step **keeps** what it shows, behind what was shown before. Nothing that was kept is ever
changed by a step. -/
theorem observations_next (machine : Machine) :
    machine.next.observations = machine.observations ++ machine.showing := by
  by_cases runs : machine.status = .running
  · obtain ⟨registers, status, becomes⟩ := exists_becomes_showing runs
    rw [next_of_running runs, becomes.observations_eq]
  · rw [next_of_not_running runs, showing_of_not_running runs, List.append_nil]

/-- A step **prints** the lines of what it shows, and nothing besides. So what is printed and what
is kept are two accounts of one thing. -/
theorem printed_step (machine : Machine) :
    (machine.perform .step).effects.printed = linesOf machine.showing := by
  by_cases runs : machine.status = .running
  · obtain ⟨registers, status, becomes⟩ := exists_becomes_showing runs
    rw [← printed_advanced becomes]
    by_cases names : machine.NamesPc
    · rw [perform_step_of_running runs names]
    · rw [perform_step_of_not_namesPc runs names, advanced_of_not_namesPc names]
  · rw [perform_step_of_not_running runs, showing_of_not_running runs]
    rfl

/-- What is shown is a register that exists, with its value, by a complete display of it at the
program counter. -/
theorem mem_showing_iff {register value : UInt8} :
    (register, value) ∈ machine.showing ↔ machine.status = .running ∧
      machine.Meets (.display register) ∧ machine.registers.get? register = some value := by
  rw [showing, List.mem_flatMap]
  constructor
  · rintro ⟨instruction, met, shows⟩
    obtain ⟨runs, meets⟩ := met?_eq_some_iff.mp (Option.mem_toList.mp met)
    have found := Instruction.get?_of_mem_shownFrom shows
    cases instruction with
    | display other =>
        obtain ⟨value, -, same⟩ := List.mem_map.mp shows
        cases same
        exact ⟨runs, meets, found⟩
    | _ => cases shows
  · rintro ⟨runs, meets, found⟩
    refine ⟨_, Option.mem_toList.mpr (met?_eq_some_iff.mpr ⟨runs, meets⟩), ?_⟩
    rw [Instruction.shownFrom, found]
    exact List.mem_singleton_self _

theorem length_showing_le (machine : Machine) : machine.showing.length ≤ 1 := by
  rw [showing]
  cases machine.met? with
  | none => exact Nat.zero_le 1
  | some instruction =>
      rw [Option.toList_some, List.flatMap_singleton]
      cases instruction with
      | display register =>
          rw [Instruction.shownFrom, List.length_map]
          cases machine.registers.get? register with
          | none => exact Nat.zero_le 1
          | some value => exact Nat.le_refl 1
      | _ => exact Nat.zero_le 1

/-- A step shows something exactly if a complete display of a register that exists stands at the
program counter. -/
theorem showing_ne_nil_iff : machine.showing ≠ [] ↔ machine.status = .running ∧
    ∃ register, machine.Meets (.display register) ∧
      register.toNat < machine.registers.count := by
  constructor
  · intro shows
    obtain ⟨⟨register, value⟩, inside⟩ := List.exists_mem_of_ne_nil _ shows
    obtain ⟨runs, meets, found⟩ := mem_showing_iff.mp inside
    exact ⟨runs, register, meets, Registers.lt_count_of_get? found⟩
  · rintro ⟨runs, register, meets, exist⟩
    have found : machine.registers.get? register = some machine.registers.values[register.toNat] :=
      List.getElem?_eq_getElem exist
    exact List.ne_nil_of_mem (mem_showing_iff.mpr ⟨runs, meets, found⟩)

/-- A complete display of a register that does not exist is passed over: the machine goes on
behind it and counts the step, and neither prints nor keeps nor changes anything else. It may stop
there for want of memory, but not for want of the register. -/
theorem passes_over_missing {register : UInt8} (runs : machine.status = .running)
    (meets : machine.Meets (.display register))
    (missing : machine.registers.count ≤ register.toNat) :
    (machine.perform .step).effects.printed = [] ∧
      machine.Becomes
        { machine.registers with
          pc := machine.registers.pc + 2
          steps := machine.registers.steps + 1 } []
        (if machine.ram.contains (machine.registers.pc + 2) then .running
          else .faulted ⟨.outOfBounds (machine.registers.pc + 2), machine.registers.pc⟩)
        machine.next := by
  have executed : (Instruction.display register).execute machine.ram machine.registers =
      .next (machine.registers.goTo (machine.registers.pc + 2)) (.noRegister register) := by
    rw [Instruction.execute, Registers.get?_eq_none_iff.mpr missing]
  have becomes := advance_of_next meets.fetch_eq executed
  rw [perform_step_of_running runs meets.namesPc, next_of_running runs]
  refine ⟨printed_advanced becomes, ?_⟩
  rw [runs] at becomes
  exact becomes

/-! ### Any action -/

/-- A reply that prints nothing and leaves the observations as they are tells nothing, and so it
tells what it keeps. -/
theorem Tells.of_silent {reply : Reply} (kept : reply.machine.observations = machine.observations)
    (printed : reply.effects.printed = []) : machine.Tells reply :=
  ⟨[], kept.trans (List.append_nil _).symm, printed⟩

/-- A number of steps prints what it keeps, by induction on the number. -/
theorem exists_shown_iterate (machine : Machine) (steps : Nat) :
    ∃ shown, (next^[steps] machine).observations = machine.observations ++ shown ∧
      (Effects.concat (machine.effectsOf steps)).printed = linesOf shown := by
  induction steps generalizing machine with
  | zero => exact ⟨[], (List.append_nil _).symm, rfl⟩
  | succ steps ih =>
      obtain ⟨shown, kept, printed⟩ := ih machine.next
      refine ⟨machine.showing ++ shown, ?_, ?_⟩
      · rw [Function.iterate_succ_apply, kept, observations_next, List.append_assoc]
      · rw [effectsOf_succ, linesOf_append, ← printed, ← printed_step]
        rfl

/-- A run of limited length prints what it keeps, whether it ends by its limit or before it. -/
theorem exists_shown_runFor {limit : Nat} {transition : Transition}
    (made : machine.runFor limit = .ok transition) :
    ∃ shown, transition.machine.observations = machine.observations ++ shown ∧
      transition.effects.printed = linesOf shown := by
  obtain ⟨steps, reached, effects⟩ := exists_iterate_of_runFor made
  rw [reached, effects]
  exact machine.exists_shown_iterate steps

/-- The reply to a run tells what it keeps, and one that fails keeps nothing new. -/
theorem tells_run (machine : Machine) (limit : Option Int) :
    machine.Tells (machine.perform (.run limit)) := by
  have replied (limit : Nat) : machine.Tells (machine.reply (machine.runFor limit)) := by
    cases made : machine.runFor limit with
    | error _ => exact .of_silent rfl rfl
    | ok transition => exact exists_shown_runFor made
  cases limit with
  | none => exact replied _
  | some limit => exact replied _

/-- An action that is neither a load nor a reset **tells** what it keeps: steps and runs print it,
and nothing else adds to the observations. -/
theorem Tells.perform (machine : Machine) (spares : ¬ action.Revives) :
    machine.Tells (machine.perform action) := by
  cases action with
  | load image => exact absurd trivial spares
  | loadFile contents =>
      cases contents with
      | ok image => exact absurd trivial spares
      | error _ => exact .of_silent rfl rfl
  | step => exact ⟨_, machine.observations_next, machine.printed_step⟩
  | run limit => exact machine.tells_run limit
  | reset => exact absurd trivial spares
  | ram action => exact .of_silent rfl (Ram.printed_perform ..)
  | _ => exact .of_silent rfl rfl

theorem observations_of_revives (machine : Machine) (revives : action.Revives) :
    (machine.perform action).machine.observations = [] ∧
      (machine.perform action).effects.printed = [] := by
  cases action with
  | load image => exact ⟨rfl, rfl⟩
  | loadFile contents =>
      cases contents with
      | ok image => exact ⟨rfl, rfl⟩
      | error _ => cases revives
  | reset => exact ⟨rfl, rfl⟩
  | _ => cases revives

/-! ### A session -/

/-- The replies since the last revival, one action later: the list starts anew, or the reply is
added to it. -/
theorem sinceRevived_concat {actions : List Action} {replies : List Reply}
    (same : actions.length = replies.length) (action : Action) (reply : Reply) :
    sinceRevived (actions ++ [action]) (replies ++ [reply]) =
      if action.Revives then [] else sinceRevived actions replies ++ [reply] := by
  rw [sinceRevived, List.zip_append same, List.zip_cons_cons, List.zip_nil_right,
    List.reverse_concat, List.takeWhile_cons]
  by_cases revives : action.Revives
  · rw [if_pos revives, if_neg (by simp [revives])]
    rfl
  · rw [if_neg revives, if_pos (by simp [revives]), List.reverse_cons, List.map_append]
    rfl

/-- **All through a session** of a machine that had nothing to show before it, the text printed
since the last load or reset is the lines of what is kept. -/
theorem printed_since_revived (silent : machine.observations = []) (actions : List Action) :
    (sinceRevived actions (machine.session actions).2).flatMap (·.effects.printed) =
      linesOf (machine.session actions).1.observations := by
  induction actions using List.reverseRecOn with
  | nil =>
      rw [session, silent]
      rfl
  | append_singleton actions action ih =>
      rw [session_concat, sinceRevived_concat (length_replies ..).symm]
      by_cases revives : action.Revives
      · obtain ⟨kept, -⟩ := observations_of_revives (machine.session actions).1 revives
        rw [if_pos revives, kept]
        rfl
      · obtain ⟨shown, kept, printed⟩ := Tells.perform (machine.session actions).1 revives
        rw [if_neg revives, kept, linesOf_append, ← ih, ← printed, List.flatMap_append,
          List.flatMap_singleton]

/-- Without a load or a reset observations are only added, over a whole session. -/
theorem observations_isPrefix_session (machine : Machine) {actions : List Action}
    (spared : ∀ action ∈ actions, ¬ action.Revives) :
    machine.observations <+: (machine.session actions).1.observations := by
  induction actions generalizing machine with
  | nil => exact List.prefix_rfl
  | cons action actions ih =>
      rw [List.forall_mem_cons] at spared
      obtain ⟨shown, kept, -⟩ := Tells.perform machine spared.1
      have first : machine.observations <+: (machine.perform action).machine.observations := by
        rw [kept]
        exact List.prefix_append ..
      exact first.trans (ih (machine.perform action).machine spared.2)

/-- **What is printed is what is observed.** A machine is made, and then anything is done to it. The
text that it has printed since the last load or reset is one line for each of its observations, in
their order. Until the next load or reset observations are only added. A step adds one at most, and
does so exactly if the machine runs and a complete display of a register that exists stands at its
program counter: that register, with its value before the step. A complete display of a register
that does not exist prints nothing, changes no register, no byte of the memory and no observation,
and does not fault for the register. -/
theorem printed_is_observed {choice : ProfileRef} {profile : Profile} {registerCount ramSize : Int}
    (chosen : choice.resolve = .ok profile) (registers : 0 < registerCount) (ram : 0 < ramSize)
    (actions : List Action) :
    ∃ fresh, create choice registerCount ramSize = .ok fresh ∧
      let reached := (fresh.session actions).1
      let reply := reached.perform .step
      (sinceRevived actions (fresh.session actions).2).flatMap (·.effects.printed) =
        reached.observations.flatMap (fun entry =>
          "Register R".toList ++ Text.decimal entry.1.toNat ++ ": ".toList ++
            Text.decimal entry.2.toNat ++ ['\n']) ∧
      (∀ later, (∀ action ∈ later, ¬ action.Revives) →
        reached.observations <+: (reached.session later).1.observations) ∧
      (∃ shown, shown.length ≤ 1 ∧ reply.machine.observations = reached.observations ++ shown ∧
        (shown ≠ [] ↔ reached.status = .running ∧
          ∃ register, reached.Meets (.display register) ∧ register.toNat < registerCount) ∧
        ∀ register value, (register, value) ∈ shown →
          reached.Meets (.display register) ∧ reached.registers.get? register = some value) ∧
      ∀ register, reached.status = .running → reached.Meets (.display register) →
        registerCount ≤ register.toNat →
        reply.effects.printed = [] ∧ reply.machine.registers.values = reached.registers.values ∧
          reply.machine.ram = reached.ram ∧ reply.machine.observations = reached.observations ∧
          ∀ fault, reply.machine.status = .faulted fault → fault.cause.kind ≠ .invalidRegister := by
  refine ⟨_, create_eq chosen registers ram, ?_⟩
  intro reached reply
  have start := sound_zeroed profile registerCount.toNat ramSize.toNat
  have count : (reached.registers.count : Int) = registerCount := by
    have sound := holds_session (fun _ action sound => sound.perform action) start actions
    exact (congrArg Int.ofNat sound.count_eq).trans (Int.toNat_of_nonneg (Int.le_of_lt registers))
  refine ⟨printed_since_revived rfl actions, fun later spared =>
    reached.observations_isPrefix_session spared, ⟨reached.showing, reached.length_showing_le,
    reached.observations_next, ?_, fun register value inside => ?_⟩,
    fun register runs meets missing => ?_⟩
  · simp only [showing_ne_nil_iff, ← count, Int.ofNat_lt]
  · exact (mem_showing_iff.mp inside).2
  · rw [← count, Int.ofNat_le] at missing
    obtain ⟨silent, becomes⟩ := passes_over_missing runs meets missing
    have values := congrArg Registers.values becomes.registers_eq
    refine ⟨silent, values, becomes.ram_eq, becomes.observations_eq.trans (List.append_nil _), ?_⟩
    intro fault faulted
    have status : reply.machine.status = _ := becomes.status_eq
    rw [faulted] at status
    split at status
    · cases status
    · cases status
      exact nofun

/-- A machine shows a register whose value was set from outside, passes over one that it does not
have, and shows its other register in the step that leads it out of its memory. What it has
printed before the second load is not told again. -/
theorem exists_printed_is_observed :
    let actions : List Action := [.load [Mnemonic.display.opcode, 0], .run none,
      .load [Mnemonic.display.opcode, 1, Mnemonic.display.opcode, 9, Mnemonic.display.opcode, 0],
      .registers (.write 1 (-1)), .step, .ram (.write 0 0), .trace true, .run none]
    ∃ fresh, create (.named "resolved") 2 6 = .ok fresh ∧
      (fresh.session actions).1.status.name = "FAULTED" ∧
      (fresh.session actions).1.observations = [(1, 255), (0, 0)] ∧
      (sinceRevived actions (fresh.session actions).2).flatMap (·.effects.printed) =
        "Register R1: 255\nRegister R0: 0\n".toList := by
  intro actions
  obtain ⟨fresh, made, printed, -⟩ := @printed_is_observed (.named "resolved") _ 2 6 rfl (by decide)
    (by decide) actions
  have new : fresh = zeroed .resolved 2 6 := (Except.ok.inj made).symm
  have observed : (fresh.session actions).1.observations = [(1, 255), (0, 0)] := by
    rw [new]
    decide +kernel
  refine ⟨fresh, made, ?_, observed, ?_⟩
  · rw [new]
    decide +kernel
  · rw [printed, observed]
    decide +kernel

end Machine

end ByteMachine
