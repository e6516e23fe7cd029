import Mathlib.Data.Nat.Count
import ByteMachine.Proofs.Machine.Loaded
import ByteMachine.Proofs.Machine.Run

/-!
# What holds all through a run

A step of a machine that runs `Completes` the instruction at its program counter if that can be seen
to go through: all of its bytes stand in the memory, the registers that it needs exist, and a jump
finds its target. Otherwise the step refuses it (`refuses_or_completes`), and changes nothing but
the status, or it is not made at all. So the count of steps tells how many instructions have been
completed.

Since a fetch has found the whole instruction, the program counter behind it is at most the end of
the memory. That is why an instruction which goes on can leave the memory only by one address, and
why any other address outside of it is a byte that a branch has gone to.

## Main results

* `Completes.becomes`: what a step does with an instruction that it completes.
* `exists_completes_of_outside`: how the program counter leaves the memory.
* `steps_iterate_next`: what the count of steps counts.
* `invariant_of_load`: a loaded image, behind any number of steps.
-/

namespace ByteMachine

/-- The byte that an instruction **jumps to**: the target of a jump, which may have to be looked up
behind its opcode, and that of a branch whose comparison holds. All others go on. -/
def Instruction.jumpsTo? (ram : Ram) (registers : Registers) : Instruction → Option UInt8
  | .jump address => address.or (ram.read (registers.pc + 1)).toOption
  | .branchIf register value address =>
    if registers.get? register = some value then address else none
  | _ => none

namespace Machine

/-- A step of a machine that runs **completes** an instruction: it stands at the program counter,
the registers that it needs exist, and a jump whose target is no operand finds it behind its
opcode. -/
structure Completes (machine : Machine) (instruction : Instruction) : Prop where
  runs : machine.status = .running
  meets : machine.Meets instruction
  exist : ∀ register ∈ instruction.registersNeeded, register.toNat < machine.registers.count
  finds : instruction = .jump none → machine.ram.contains (machine.registers.pc + 1) = true

variable {machine : Machine} {instruction : Instruction}

/-! ### One step -/

/-- Whether a step completes an instruction can be worked out: there is only one instruction that it
can complete, the one that is fetched. -/
instance decidableCompletes (machine : Machine) :
    Decidable (∃ instruction, machine.Completes instruction) :=
  match fetched : machine.ram.fetch machine.profile machine.registers.pc with
  | .error _ => isFalse fun ⟨_, completes⟩ => by
      rw [completes.meets.fetch_eq] at fetched
      cases fetched
  | .ok instruction =>
    decidable_of_iff (machine.status = .running ∧
      instruction.registersNeeded.all
        (fun register => register.toNat < machine.registers.count) = true ∧
      (instruction = .jump none → machine.ram.contains (machine.registers.pc + 1) = true)) <| by
    simp only [List.all_eq_true, decide_eq_true_iff]
    constructor
    · rintro ⟨runs, exist, finds⟩
      exact ⟨instruction, runs, Ram.fetch_eq_ok_iff.mp fetched, exist, finds⟩
    · rintro ⟨other, completes⟩
      have same := completes.meets.fetch_eq
      rw [fetched] at same
      cases same
      exact ⟨completes.runs, completes.exist, completes.finds⟩

/-- What a step **does** with an instruction that it completes: it halts at `exit`, and otherwise it
leaves what the instruction should. -/
theorem Completes.becomes (completes : machine.Completes instruction) :
    (instruction = .exit ∧
        machine.Becomes (countStep machine.registers) [] .halted machine.next) ∨
      instruction ≠ .exit ∧ ∃ after report,
        instruction.Does machine.ram machine.registers after report ∧
          machine.Becomes (countStep after) report.shown
            (if machine.ram.contains after.pc then .running
              else .faulted ⟨.outOfBounds after.pc, machine.registers.pc⟩) machine.next := by
  have fetched := completes.meets.fetch_eq
  have outcome := Instruction.outcome_execute machine.ram machine.registers instruction
  rw [next_of_running completes.runs]
  generalize executed : instruction.execute machine.ram machine.registers = execution at outcome
  cases outcome with
  | halts exits => exact .inl ⟨exits, advance_of_halt fetched executed⟩
  | refused first =>
      have missing := List.find?_some first
      rw [decide_eq_true_iff] at missing
      exact absurd (completes.exist _ (List.mem_of_find?_eq_some first)) (Nat.not_lt.mpr missing)
  | astray jumps outside => exact absurd (completes.finds jumps) outside
  | done goesOn _ _ does =>
      have becomes := advance_of_next fetched executed
      rw [completes.runs] at becomes
      exact .inr ⟨goesOn, _, _, does, becomes⟩

/-- A step that is made **refuses** what it meets, or it **completes** an instruction. Nothing lies
between the two, so no step is half done. -/
theorem refuses_or_completes (runs : machine.status = .running) (names : machine.NamesPc) :
    (∃ kind, machine.Refuses kind) ∨ ∃ instruction, machine.Completes instruction := by
  by_cases refuses : ∃ kind, machine.Refuses kind
  · exact .inl refuses
  · rcases machine.refuses_or_executes with refused | ⟨instruction, meets, -⟩ | unnamed
    · exact absurd refused refuses
    · refine .inr ⟨instruction, runs, meets, fun register needed => ?_, fun jumps => ?_⟩
      · by_contra missing
        exact refuses ⟨_, .register meets needed (Nat.le_of_not_lt missing)⟩
      · subst jumps
        have holds : machine.ram.HoldsAt machine.registers.pc [Mnemonic.jump.opcode] := meets.2
        have inside := Ram.contains_iff.mp holds.contains
        by_contra outside
        rw [Ram.contains_iff] at outside
        refine refuses ⟨_, .cutOff holds ?_⟩
        rw [Mnemonic.reach]
        omega
    · exact absurd names unnamed

theorem Completes.steps_next (completes : machine.Completes instruction) :
    machine.next.registers.steps = machine.registers.steps + 1 := by
  rcases completes.becomes with ⟨-, halted⟩ | ⟨-, after, report, does, becomes⟩
  · rw [halted.registers_eq]
    rfl
  · rw [becomes.registers_eq, ← does.steps]
    rfl

/-- A step that refuses what it meets leaves the registers alone, the count of steps among them. -/
theorem Refuses.registers_next {kind : FaultKind} (refuses : machine.Refuses kind)
    (runs : machine.status = .running) : machine.next.registers = machine.registers := by
  obtain ⟨cause, -, refused⟩ := refuses.becomes
  rw [next_of_running runs]
  exact refused.registers_eq

theorem Refuses.not_completes {kind : FaultKind} (refuses : machine.Refuses kind)
    (runs : machine.status = .running) : ¬ ∃ instruction, machine.Completes instruction := by
  rintro ⟨instruction, completes⟩
  have counted := completes.steps_next
  rw [refuses.registers_next runs] at counted
  omega

/-- A step counts exactly if it completes an instruction. A machine that has stopped completes
none. -/
theorem steps_next (machine : Machine) :
    machine.next.registers.steps = machine.registers.steps +
      if ∃ instruction, machine.Completes instruction then 1 else 0 := by
  by_cases made : machine.status = .running ∧ machine.NamesPc
  · obtain ⟨runs, names⟩ := made
    rcases refuses_or_completes runs names with ⟨kind, refuses⟩ | ⟨instruction, completes⟩
    · rw [if_neg (refuses.not_completes runs), refuses.registers_next runs, Nat.add_zero]
    · rw [if_pos ⟨instruction, completes⟩, completes.steps_next]
  · have none : ¬ ∃ instruction, machine.Completes instruction := by
      rintro ⟨instruction, completes⟩
      exact made ⟨completes.runs, completes.meets.namesPc⟩
    rw [if_neg none, next_of_not_made made, Nat.add_zero]

/-! ### Where the program counter stands -/

/-- An instruction that is completed jumps to a byte, or it goes on behind its own bytes. -/
theorem Completes.pcAfter_eq (completes : machine.Completes instruction)
    (goesOn : instruction ≠ .exit) :
    instruction.pcAfter machine.ram machine.registers =
      (instruction.jumpsTo? machine.ram machine.registers).elim
        (machine.registers.pc + instruction.length) fun target => target.toNat := by
  cases instruction with
  | exit => exact absurd rfl goesOn
  | branchIf register value address =>
      rw [Instruction.jumpsTo?]
      cases address with
      | none =>
          rw [ite_self]
          rfl
      | some target =>
          rw [Instruction.pcAfter]
          by_cases equal : machine.registers.get? register = some value
          · rw [if_pos equal, if_pos equal]
            rfl
          · rw [if_neg equal, if_neg equal]
            rfl
  | jump address =>
      cases address with
      | some target => rfl
      | none =>
          obtain ⟨target, holds⟩ := Ram.exists_holdsAt (completes.finds rfl)
          rw [Instruction.pcAfter, Instruction.jumpsTo?, holds.getD_cells_eq, holds.read_eq]
          rfl
  | _ => rfl

/-- A step that passes has completed an instruction other than `exit`, and leads where that
does. -/
theorem exists_completes_of_passes (passes : machine.Passes) :
    ∃ instruction, machine.Completes instruction ∧ instruction ≠ .exit ∧
      machine.next.registers.pc = instruction.pcAfter machine.ram machine.registers := by
  obtain ⟨runs, names, still⟩ := passes_iff.mp passes
  rcases refuses_or_completes runs names with ⟨kind, refuses⟩ | ⟨instruction, completes⟩
  · obtain ⟨cause, -, refused⟩ := refuses.becomes
    rw [next_of_running runs, refused.status_eq] at still
    cases still
  · rcases completes.becomes with ⟨-, halted⟩ | ⟨goesOn, after, report, does, becomes⟩
    · rw [halted.status_eq] at still
      cases still
    · refine ⟨instruction, completes, goesOn, ?_⟩
      rw [becomes.registers_eq, ← does.pc]
      rfl

/-- A step that leads out of the memory has completed an instruction. It stands at the end of
the memory if that went on, and at the target if it jumped. -/
theorem exists_completes_of_next (inside : machine.ram.contains machine.registers.pc = true)
    (outside : ¬ machine.ram.contains machine.next.registers.pc = true) :
    ∃ instruction, machine.Completes instruction ∧
      machine.next.status =
        .faulted ⟨.outOfBounds machine.next.registers.pc, machine.registers.pc⟩ ∧
      machine.next.registers.pc =
        (instruction.jumpsTo? machine.ram machine.registers).elim (machine.ram.size : Int)
          fun target => target.toNat := by
  by_cases runs : machine.status = .running
  · have names := Ram.names_of_contains inside
    rcases refuses_or_completes runs names with ⟨kind, refuses⟩ | ⟨instruction, completes⟩
    · rw [refuses.registers_next runs] at outside
      exact absurd inside outside
    · rcases completes.becomes with ⟨-, halted⟩ | ⟨goesOn, after, report, does, becomes⟩
      · rw [halted.registers_eq] at outside
        exact absurd inside outside
      · have arrives : machine.next.registers.pc = after.pc := by
          rw [becomes.registers_eq]
          rfl
        rw [arrives] at outside
        rw [if_neg outside, ← arrives] at becomes
        refine ⟨instruction, completes, becomes.status_eq, ?_⟩
        have goes := completes.pcAfter_eq goesOn
        rw [← does.pc] at goes
        rw [arrives, goes]
        cases jumps : instruction.jumpsTo? machine.ram machine.registers with
        | some target => rfl
        | none =>
            -- All bytes of the instruction are in the memory, and the next one is not.
            rw [jumps, Option.elim_none] at goes
            have ends := completes.meets.2.le_size
            rw [Instruction.length_bytes] at ends
            rw [Ram.contains_iff, goes] at outside
            rw [Option.elim_none, Option.elim_none]
            omega
  · rw [next_of_not_running runs] at outside
    exact absurd inside outside

/-! ### Any number of steps -/

/-- The **count** of steps is that of the instructions which have been completed, over any number of
steps, those of a machine that has stopped included. -/
theorem steps_iterate_next (machine : Machine) (steps : Nat) :
    (next^[steps] machine).registers.steps = machine.registers.steps +
      Nat.count (fun k => ∃ instruction, (next^[k] machine).Completes instruction) steps := by
  induction steps with
  | zero => rfl
  | succ steps ih =>
      rw [Function.iterate_succ_apply', steps_next, ih, Nat.count_succ, Nat.add_assoc]

/-- A machine that still runs behind some steps has its program counter in the memory, if it had
it there before them. -/
theorem contains_of_runs (inside : machine.ram.contains machine.registers.pc = true) {steps : Nat}
    (runs : (next^[steps] machine).status = .running) :
    machine.ram.contains (next^[steps] machine).registers.pc = true := by
  induction steps with
  | zero => exact inside
  | succ steps ih =>
      rw [Function.iterate_succ_apply'] at runs ⊢
      by_cases before : (next^[steps] machine).status = .running
      · have within := ih before
        have names : (next^[steps] machine).NamesPc := by
          rw [← ram_iterate_next machine steps] at within
          exact Ram.names_of_contains within
        have passed := contains_of_passes (passes_iff.mpr ⟨before, names, runs⟩)
        rwa [ram_iterate_next] at passed
      · rw [next_of_not_running before] at runs
        exact absurd runs before

/-- A machine whose program counter is **outside the memory** behind some steps, and was in it
before them, has left it with the last instruction that it completed. -/
theorem exists_completes_of_outside (inside : machine.ram.contains machine.registers.pc = true)
    {steps : Nat} (outside : ¬ machine.ram.contains (next^[steps] machine).registers.pc = true) :
    ∃ k < steps, ∃ instruction, (next^[k] machine).Completes instruction ∧
      next^[k + 1] machine = next^[steps] machine ∧
      (next^[steps] machine).status = .faulted
        ⟨.outOfBounds (next^[steps] machine).registers.pc, (next^[k] machine).registers.pc⟩ ∧
      (next^[steps] machine).registers.pc =
        (instruction.jumpsTo? machine.ram (next^[k] machine).registers).elim
          (machine.ram.size : Int) fun target => target.toNat := by
  induction steps with
  | zero => exact absurd inside outside
  | succ steps ih =>
      by_cases runs : (next^[steps] machine).status = .running
      · have within := contains_of_runs inside runs
        rw [Function.iterate_succ_apply'] at outside ⊢
        have left := @exists_completes_of_next (next^[steps] machine)
        rw [ram_iterate_next] at left
        obtain ⟨instruction, completes, faulted, goes⟩ := left within outside
        exact ⟨steps, Nat.lt_succ_self steps, instruction, completes,
          Function.iterate_succ_apply' .., faulted, goes⟩
      · have stands : next^[steps + 1] machine = next^[steps] machine := by
          rw [Function.iterate_succ_apply', next_of_not_running runs]
        rw [stands] at outside ⊢
        obtain ⟨k, early, left⟩ := ih outside
        exact ⟨k, Nat.lt_succ_of_lt early, left⟩

/-! ### Loaded images -/

/-- **What holds all through a run** of a machine that has loaded an image, behind any number of
steps. The memory holds what it held at first: as much of the image as fits, then zeros. While the
machine runs, its program counter is in the memory, and it is never below zero or above both the
size of the memory and the largest byte. If it is outside the memory, then the last instruction that
was completed has put it there, which is the fault that ended the run: at the very end of the memory
if that instruction went on, and otherwise at the byte that it jumped to. And the machine has
counted the steps that completed an instruction. -/
theorem invariant_of_load (machine : Machine) (image : List UInt8) (positive : 0 < machine.ram.size)
    (steps : Nat) :
    let behind (k : Nat) := ((machine.load image).session (List.replicate k .step)).1
    let reached := behind steps
    reached.ram.cells = image.take machine.ram.size ++
        List.replicate (machine.ram.size - image.length) 0 ∧
      (reached.status = .running →
        0 ≤ reached.registers.pc ∧ reached.registers.pc < machine.ram.size) ∧
      (0 ≤ reached.registers.pc ∧ reached.registers.pc ≤ max (machine.ram.size : Int) 0xFF) ∧
      (¬ reached.ram.contains reached.registers.pc = true →
        ∃ k < steps, ∃ instruction, (behind k).Completes instruction ∧ behind (k + 1) = reached ∧
          reached.status =
            .faulted ⟨.outOfBounds reached.registers.pc, (behind k).registers.pc⟩ ∧
          reached.registers.pc =
            (instruction.jumpsTo? (behind k).ram (behind k).registers).elim
              (machine.ram.size : Int) fun target => target.toNat) ∧
      reached.registers.steps =
        Nat.count (fun k => ∃ instruction, (behind k).Completes instruction) steps ∧
      reached.registers.steps ≤ steps := by
  intro behind reached
  have reaches (k : Nat) : behind k = next^[k] (machine.load image) := by
    simp only [behind, session_replicate_step]
  have size : (machine.load image).ram.size = machine.ram.size := by
    rw [ram_load, Ram.size_load]
  have start : (machine.load image).ram.contains (machine.load image).registers.pc = true := by
    rw [Ram.contains_iff, size]
    exact ⟨Int.le_refl 0, Int.natCast_pos.mpr positive⟩
  have memory (k : Nat) : (next^[k] (machine.load image)).ram = (machine.load image).ram :=
    ram_iterate_next ..
  have counted := (machine.load image).steps_iterate_next steps
  rw [show (machine.load image).registers.steps = 0 from rfl, Nat.zero_add] at counted
  have left := @exists_completes_of_outside (machine.load image) start steps
  rw [size] at left
  simp only [reached, reaches, memory]
  refine ⟨?_, fun runs => ?_, ?_, left, counted, counted.le.trans (Nat.count_le ..)⟩
  · rw [ram_load, Ram.load_eq]
  · have within := contains_of_runs start runs
    rwa [Ram.contains_iff, size] at within
  · by_cases within : (machine.load image).ram.contains
        (next^[steps] (machine.load image)).registers.pc = true
    · rw [Ram.contains_iff, size] at within
      omega
    · obtain ⟨k, -, instruction, -, -, -, goes⟩ := left within
      rw [goes]
      cases instruction.jumpsTo? (machine.load image).ram
          (next^[k] (machine.load image)).registers with
      | none =>
          rw [Option.elim_none]
          omega
      | some target =>
          have small := target.toNat_lt
          rw [Option.elim_some]
          omega

/-- A jump to a byte behind a memory of two bytes leaves the program counter there, with one step
counted. -/
theorem exists_invariant_of_jump :
    let machine := zeroed .classic 1 2
    let behind (k : Nat) :=
      ((machine.load [Mnemonic.jump.opcode, 200, 0]).session (List.replicate k .step)).1
    0 < machine.ram.size ∧ (behind 3).registers.pc = 200 ∧ (behind 3).registers.steps = 1 ∧
      ∃ k < 3, ∃ instruction, (behind k).Completes instruction ∧ behind (k + 1) = behind 3 ∧
        (behind 3).status =
          .faulted ⟨.outOfBounds (behind 3).registers.pc, (behind k).registers.pc⟩ ∧
        (behind 3).registers.pc =
          (instruction.jumpsTo? (behind k).ram (behind k).registers).elim
            (machine.ram.size : Int) fun target => target.toNat := by
  intro machine behind
  obtain ⟨-, -, -, left, -, -⟩ :=
    invariant_of_load machine [Mnemonic.jump.opcode, 200, 0] (by decide) 3
  exact ⟨by decide, by decide, by decide, left (by decide)⟩

end Machine

end ByteMachine
