import ByteMachine.Proofs.Machine.Reload

/-!
# What no session breaks

A machine stays `Sound` whatever is asked of it, in any order, failures included: it keeps its
registers and its memory, it has a fault exactly in the state of one, an idle machine has nothing to
tell, and whatever has been shown was a register that exists. A program counter that is set from
outside, or memory that is written over, may send a machine that runs anywhere, but not beyond this.

The shape of a machine is kept by everything (`SameShape.perform`). For the rest one step is the
only case with something to prove: it fills the field of the fault as it enters that state
(`fault_advanced`), what it shows exists (`exists_shown_next`), and it makes no machine idle that is
not.

A program counter that is set from outside can also be too far away to be named. That breaks nothing
in the machine, but no step is made from there.

## Main results

* `Sound.next`, `Sound.perform`: one step and one action.
* `Sound.fault?_status`: the fault in the status of a sound machine is the one that it keeps.
* `sound_replies`: every machine of a session.
-/

namespace ByteMachine

/-- The reason to stop is a fault in the faulted state only, whatever is in the fault field. -/
theorem CpuState.stopReason?_eq_fault_iff (state : CpuState) :
    state.stopReason? = some .fault ↔ state = .faulted := by
  cases state <;> decide

theorem CpuState.stopReason?_eq_halt_iff (state : CpuState) :
    state.stopReason? = some .halt ↔ state = .halted := by
  cases state <;> decide

namespace Machine

/-- A machine with `count` registers and `size` bytes of memory is **sound** if it has them, if it
keeps a fault in the state of a fault and in no other, if it has nothing to tell while it is idle,
and if every register that it has shown exists. -/
structure Sound (count size : Nat) (machine : Machine) : Prop where
  count_eq : machine.registers.count = count
  size_eq : machine.ram.size = size
  faulted_iff : machine.state = .faulted ↔ machine.fault ≠ none
  silent : machine.state = .idle → machine.observations = [] ∧ machine.traceEntries = []
  shown : ∀ entry ∈ machine.observations, entry.1.toNat < count

variable {count size : Nat} {machine : Machine}

/-- A machine that is new is sound: it is idle, and nothing has been kept. -/
theorem sound_zeroed (profile : Profile) (count size : Nat) :
    Sound count size (zeroed profile count size) where
  count_eq := List.length_replicate
  size_eq := List.length_replicate
  faulted_iff := iff_of_false nofun fun fault => fault rfl
  silent _ := ⟨rfl, rfl⟩
  shown := List.forall_mem_nil _

namespace Sound

/-- What keeps its shape and begins anew, with no fault and nothing to tell, is sound. Loading and
resetting do this. -/
theorem of_sameShape {other : Machine} (sound : Sound count size machine)
    (same : SameShape machine other) (state : other.state ≠ .faulted) (fault : other.fault = none)
    (observations : other.observations = []) (entries : other.traceEntries = []) :
    Sound count size other where
  count_eq := same.count_eq.trans sound.count_eq
  size_eq := same.size_eq.trans sound.size_eq
  faulted_iff := iff_of_false state fun filled => filled fault
  silent _ := ⟨observations, entries⟩
  shown := by
    rw [observations]
    exact List.forall_mem_nil _

/-- What keeps its shape, its state with the fault, and its histories is sound. -/
theorem of_histories {other : Machine} (sound : Sound count size machine)
    (same : SameShape machine other) (state : other.state = machine.state)
    (fault : other.fault = machine.fault) (observations : other.observations = machine.observations)
    (entries : other.traceEntries = machine.traceEntries) : Sound count size other where
  count_eq := same.count_eq.trans sound.count_eq
  size_eq := same.size_eq.trans sound.size_eq
  faulted_iff := by
    rw [state, fault]
    exact sound.faulted_iff
  silent := by
    rw [state, observations, entries]
    exact sound.silent
  shown := by
    rw [observations]
    exact sound.shown

/-- A step keeps a machine **sound**: the state and the fault are set together, and histories only
grow. -/
theorem next (sound : Sound count size machine) : Sound count size machine.next where
  count_eq := machine.count_next.trans sound.count_eq
  size_eq := (congrArg Ram.size machine.ram_next).trans sound.size_eq
  faulted_iff := by
    by_cases runs : machine.status = .running
    · have clean : machine.fault = none := by
        have state : machine.state ≠ .faulted := by
          rw [← state_status, runs]
          exact nofun
        exact not_not.mp (mt sound.faulted_iff.mpr state)
      rw [next_of_running runs]
      rcases fault_advanced runs with ⟨other, kept⟩ | ⟨faulted, filled⟩
      · exact iff_of_false other fun filled => filled (kept.trans clean)
      · exact iff_of_true faulted filled
    · rw [next_of_not_running runs]
      exact sound.faulted_iff
  silent idle := by
    -- A machine that is idle behind a step was so before it, and has made none.
    by_cases loaded : machine.status = .idle
    · have stands : machine.next = machine := next_of_not_running (by rw [loaded]; exact nofun)
      rw [stands] at idle ⊢
      exact sound.silent idle
    · exact absurd (status_eq_idle_iff.mpr idle) (status_next_ne_idle loaded)
  shown := by
    obtain ⟨shown, observations, exist⟩ := machine.exists_shown_next
    rw [observations, List.forall_mem_append]
    refine ⟨sound.shown, fun entry inside => ?_⟩
    rw [← sound.count_eq]
    exact Registers.lt_count_of_get? (exist entry inside)

/-- **No action** makes a machine unsound, whether it is a step, a load or an access from outside.
What an access can change is not part of soundness. -/
theorem perform (sound : Sound count size machine) (action : Action) :
    Sound count size (machine.perform action).machine :=
  holds_perform (p := Sound count size)
    (fun _ => next)
    (fun machine image sound => sound.of_sameShape (.load machine image) nofun rfl rfl rfl)
    (fun machine sound => sound.of_sameShape (.perform machine .reset) nofun rfl rfl rfl)
    (fun machine enabled sound =>
      sound.of_histories (.perform machine (.trace enabled)) rfl rfl rfl rfl)
    (fun machine action sound =>
      sound.of_histories (.perform machine (.registers action)) rfl rfl rfl rfl)
    (fun machine action sound =>
      sound.of_histories (.perform machine (.ram action)) rfl rfl rfl rfl)
    sound action

/-- The fault in the **status** of a sound machine is the one that it keeps. So nothing is lost
where a law speaks of the status alone. -/
theorem fault?_status (sound : Sound count size machine) :
    machine.status.fault? = machine.fault := by
  rw [status]
  by_cases faulted : machine.state = .faulted
  · obtain ⟨fault, kept⟩ := Option.ne_none_iff_exists'.mp (sound.faulted_iff.mp faulted)
    rw [faulted, kept]
    rfl
  · rw [not_not.mp (mt sound.faulted_iff.mpr faulted)]
    cases state : machine.state with
    | faulted => exact absurd state faulted
    | _ => rfl

end Sound

/-- A machine of a known profile and positive sizes is made, and is new. -/
theorem create_eq {choice : ProfileRef} {profile : Profile} {registerCount ramSize : Int}
    (chosen : choice.resolve = .ok profile) (registers : 0 < registerCount) (ram : 0 < ramSize) :
    create choice registerCount ramSize =
      .ok (zeroed profile registerCount.toNat ramSize.toNat) := by
  rw [create, chosen, Registers.create, Ram.create, if_pos registers, if_pos ram]
  rfl

/-- A machine makes a step exactly if it is ready for one, and tells the reason that it has to
stop then. If it is not, then it is idle, or it runs and its program counter cannot be named. -/
theorem step_cases (machine : Machine) :
    (machine.state = .idle ∧ machine.step = .error .notLoaded) ∨
      (machine.state = .running ∧ ¬ machine.NamesPc ∧ machine.step = .error (.unnamed {})) ∨
      machine.state ≠ .idle ∧ (machine.state = .running → machine.NamesPc) ∧
        ∃ transition, machine.step = .ok transition ∧
          transition.reason? = transition.machine.stopReason? := by
  by_cases ready : machine.Ready
  · refine .inr (.inr ⟨fun idle => ready.loaded (status_eq_idle_iff.mpr idle),
      fun runs => ready.names (status_eq_running_iff.mpr runs),
      _, step_of_answer ready.answer_eq, rfl⟩)
  · exact (step_of_not_ready ready).imp_right .inl

/-- **No session breaks a machine.** It is made of a known profile with registers and memory, and
then anything is done to it. At any time it has as many registers and bytes of memory as it was made
with, and each holds a byte. It is faulted exactly if it keeps a fault, and its reason to stop is
the fault, or that it has halted, or there is none. While it is idle it has no fault and nothing to
tell. Whatever it has shown is a register that exists, and a byte. And it makes a step unless it is
idle, or runs with a program counter that was set to where it cannot be named: so far outside of the
memory that the number is too long to be written. -/
theorem sound_replies {choice : ProfileRef} {profile : Profile} {registerCount ramSize : Int}
    (chosen : choice.resolve = .ok profile) (registers : 0 < registerCount) (ram : 0 < ramSize)
    (actions : List Action) :
    ∃ fresh, create choice registerCount ramSize = .ok fresh ∧ fresh.profile = profile ∧
      ∀ machine ∈ fresh :: (fresh.session actions).2.map Reply.machine,
        (machine.registers.count = registerCount ∧ machine.ram.size = ramSize ∧
          ∀ byte ∈ machine.registers.values ++ machine.ram.cells, byte.toNat ≤ 0xFF) ∧
        (machine.state = .faulted ↔ machine.fault ≠ none) ∧
        (machine.stopReason? = some .halt ↔ machine.state = .halted) ∧
        (machine.stopReason? = some .fault ↔ machine.state = .faulted) ∧
        (machine.state = .idle → machine.fault = none ∧ machine.observations = [] ∧
          machine.traceEntries = []) ∧
        (∀ entry ∈ machine.observations,
          entry.1.toNat < registerCount ∧ entry.2.toNat ≤ 0xFF) ∧
        ((machine.state = .idle ∧ machine.step = .error .notLoaded) ∨
          (machine.state = .running ∧ ¬ machine.NamesPc ∧
            machine.step = .error (.unnamed {})) ∨
          machine.state ≠ .idle ∧ (machine.state = .running → machine.NamesPc) ∧
            ∃ transition, machine.step = .ok transition ∧
              transition.reason? = transition.machine.stopReason?) := by
  refine ⟨_, create_eq chosen registers ram, rfl, ?_⟩
  have start := sound_zeroed profile registerCount.toNat ramSize.toNat
  have all := List.forall_mem_cons.mpr
    ⟨start, List.forall_mem_map.mpr (holds_replies (fun _ action sound => sound.perform action)
      start actions)⟩
  intro machine inside
  have sound := all machine inside
  have byte_le (byte : UInt8) : byte.toNat ≤ 0xFF := Nat.le_of_lt_succ byte.toNat_lt
  refine ⟨⟨?_, ?_, fun byte _ => byte_le byte⟩, sound.faulted_iff,
    machine.state.stopReason?_eq_halt_iff, machine.state.stopReason?_eq_fault_iff, fun idle => ?_,
    fun entry shows => ⟨?_, byte_le _⟩, machine.step_cases⟩
  · rw [sound.count_eq]
    exact Int.toNat_of_nonneg (Int.le_of_lt registers)
  · rw [sound.size_eq]
    exact Int.toNat_of_nonneg (Int.le_of_lt ram)
  · have state : machine.state ≠ .faulted := by
      rw [idle]
      exact nofun
    exact ⟨not_not.mp (mt sound.faulted_iff.mpr state), sound.silent idle⟩
  · have exists_register := sound.shown entry shows
    omega

/-- A machine that is asked to step too early, has its register written over below zero, shows
it and is sent out of its memory has shown a byte of the register that it has. -/
theorem exists_sound_replies :
    let actions : List Action :=
      [.step, .load [Mnemonic.display.opcode, 0, 0], .registers (.write (-1) (-1)),
        .registers (.read 1), .step, .registers (.setPc (-5)), .run none]
    ∃ fresh, create (.named "resolved") 1 3 = .ok fresh ∧
      (fresh.session actions).1.state = .faulted ∧
      (fresh.session actions).1.observations = [(0, 255)] ∧
      ∀ machine ∈ fresh :: (fresh.session actions).2.map Reply.machine,
        (machine.registers.count = (1 : Int) ∧ machine.ram.size = (3 : Int)) ∧
          ∀ entry ∈ machine.observations, entry.1.toNat < (1 : Int) ∧ entry.2.toNat ≤ 0xFF := by
  intro actions
  obtain ⟨fresh, made, -, sound⟩ := @sound_replies (.named "resolved") _ 1 3 rfl (by decide)
    (by decide) actions
  have new : fresh = zeroed .resolved 1 3 := (Except.ok.inj made).symm
  refine ⟨fresh, made, ?_, ?_, fun machine inside => ?_⟩
  · rw [new]
    decide
  · rw [new]
    decide
  · obtain ⟨⟨count, size, -⟩, -, -, -, -, shown, -⟩ := sound machine inside
    exact ⟨⟨count, size⟩, shown⟩

/-- Not every machine of a session that is not idle makes a step: here its program counter was
set to the first number that is too long. -/
theorem not_forall_replies_step :
    ¬ ∀ (fresh : Machine) (actions : List Action),
      create (.named "classic") 1 4 = .ok fresh →
        ∀ machine ∈ (fresh.session actions).2.map Reply.machine,
          machine.state ≠ .idle → ∃ transition, machine.step = .ok transition := by
  intro all
  let loaded := (zeroed .classic 1 4).load [Mnemonic.exit.opcode]
  let machine : Machine :=
    { loaded with registers := { loaded.registers with pc := Text.firstLong } }
  have unnamed : ¬ machine.NamesPc := Ram.not_names_firstLong (by decide)
  obtain ⟨transition, made⟩ := all _
    [.load [Mnemonic.exit.opcode], .registers (.setPc Text.firstLong)] rfl machine
    (.tail _ (.head _)) nofun
  rw [step_of_not_namesPc rfl unnamed] at made
  cases made

end Machine

end ByteMachine
