import ByteMachine.Proofs.Machine.Fetch
import ByteMachine.Proofs.Machine.Step

/-!
# What an instruction does

The effect of an instruction, said apart from its execution: the registers that it needs, the
numbers that stand in the registers behind it, the address where the machine goes on, and what it
shows. Registers hold integers here, and arithmetic is that of the integers modulo 256.

`Outcome` is what can come of executing an instruction. An instruction halts, or it needs a
register that does not exist, or it does not find its target, or it does all that it should.

## Main results

* `Instruction.outcome_execute`: executing an instruction has one of these outcomes.
-/

namespace ByteMachine

/-- A byte as a **number**, which is what the rules for the instructions are written in. -/
def numberOf (byte : UInt8) : Int :=
  byte.toNat

theorem numberOf_add (a b c : UInt8) :
    numberOf (a + b + c) = (numberOf a + numberOf b + c.toNat) % 256 := by
  simp only [numberOf, UInt8.toNat_add]
  omega

/-- Subtracting bytes is subtracting numbers modulo 256, the borrow included. -/
theorem numberOf_sub (a b c : UInt8) :
    numberOf (a - b - c) = (numberOf a - numberOf b - c.toNat) % 256 := by
  have := b.toNat_lt
  have := c.toNat_lt
  simp only [numberOf, UInt8.toNat_sub]
  omega

/-- Bytes are the same if they are the same number, so a comparison of bytes is one of numbers. -/
theorem numberOf_inj {a b : UInt8} : numberOf a = (b.toNat : Int) ↔ a = b := by
  rw [numberOf, Int.natCast_inj, UInt8.toNat_inj]

namespace Registers

variable {registers : Registers} {register : UInt8}

/-- The registers as **numbers**, in the order of their indices. The rules for the instructions
speak of these. -/
def numbers (registers : Registers) : List Int :=
  registers.values.map numberOf

/-- A register that does not exist has no value: its index is the number of registers or more. -/
theorem get?_eq_none_iff : registers.get? register = none ↔ registers.count ≤ register.toNat :=
  List.getElem?_eq_none_iff

theorem lt_count_of_get? {value : UInt8} (found : registers.get? register = some value) :
    register.toNat < registers.count := by
  have missing := (@get?_eq_none_iff registers register).mpr
  rw [found] at missing
  exact Nat.lt_of_not_le fun behind => nomatch missing behind

theorem getD_numbers {value : UInt8} (found : registers.get? register = some value) :
    registers.numbers.getD register.toNat 0 = numberOf value := by
  rw [get?] at found
  rw [numbers, List.getD_eq_getElem?_getD, List.getElem?_map, found]
  rfl

theorem numbers_set (registers : Registers) (register value : UInt8) :
    (registers.set register value).numbers =
      registers.numbers.set register.toNat (numberOf value) :=
  List.map_set ..

end Registers

namespace Instruction

/-! ### The effect -/

/-- The registers that an instruction **needs**, in the order in which it looks for them. `IF` and
`DPR` pass over the missing ones and need none. -/
def registersNeeded : Instruction → List UInt8
  | store register _ => [register]
  | load register _ => [register]
  | add target source _ => [target, source]
  | sub target source _ => [target, source]
  | _ => []

/-- The numbers in the registers **behind** an instruction, by the rules of arithmetic modulo
256. -/
def numbersAfter (numbers : List Int) : Instruction → List Int
  | store register value => numbers.set register.toNat value.toNat
  | load register value => numbers.set register.toNat value.toNat
  | add target source value =>
    numbers.set target.toNat
      ((numbers.getD target.toNat 0 + numbers.getD source.toNat 0 + value.toNat) % 256)
  | sub target source value =>
    numbers.set target.toNat
      ((numbers.getD target.toNat 0 - numbers.getD source.toNat 0 - value.toNat) % 256)
  | _ => numbers

/-- The address where the machine **goes on** behind an instruction: behind its bytes, or at its
target. -/
def pcAfter (ram : Ram) (registers : Registers) : Instruction → Int
  | exit => registers.pc
  | store _ _ => registers.pc + 3
  | load _ _ => registers.pc + 3
  | add _ _ _ => registers.pc + 4
  | sub _ _ _ => registers.pc + 4
  | branchIf _ _ none => registers.pc + 3
  | branchIf register value (some target) =>
    if registers.get? register = some value then target.toNat else registers.pc + 4
  | jump (some target) => target.toNat
  | jump none => (ram.cells.getD (registers.pc + 1).toNat 0).toNat
  | display _ => registers.pc + 2

/-- What an instruction **shows**: the registers that `DPR` names with their values, and nothing for
the others. -/
def shownFrom (registers : Registers) : Instruction → List (UInt8 × UInt8)
  | display register => (registers.get? register).toList.map fun value => (register, value)
  | _ => []

/-- An instruction **does** what it should: numbers, program counter and what is shown are those of
the rules, and nothing else changes. -/
structure Does (ram : Ram) (before : Registers) (instruction : Instruction) (after : Registers)
    (report : Report) : Prop where
  numbers : after.numbers = instruction.numbersAfter before.numbers
  pc : after.pc = instruction.pcAfter ram before
  steps : after.steps = before.steps
  shown : report.shown = instruction.shownFrom before

/-- What can **come of** executing an instruction. It does what it should, or it names the first
register that is missing. -/
inductive Outcome (ram : Ram) (before : Registers) (instruction : Instruction) : Execution → Prop
  | halts (exits : instruction = .exit) : Outcome ram before instruction .halt
  /-- The first register that is needed and does not exist is named. -/
  | refused {register : UInt8}
      (first : instruction.registersNeeded.find? (fun register => before.count ≤ register.toNat) =
        some register) : Outcome ram before instruction (.invalidRegister register)
  | astray (jumps : instruction = .jump none) (outside : ¬ ram.contains (before.pc + 1) = true) :
      Outcome ram before instruction (.noTarget (ram.refuse (before.pc + 1)))
  | done {after : Registers} {report : Report} (goesOn : instruction ≠ .exit)
      (exist : ∀ register ∈ instruction.registersNeeded, register.toNat < before.count)
      (finds : instruction = .jump none → ram.contains (before.pc + 1) = true)
      (does : instruction.Does ram before after report) :
      Outcome ram before instruction (.next after report)

/-- What an instruction shows is a register that exists, with the value that it has. -/
theorem get?_of_mem_shownFrom {registers : Registers} {instruction : Instruction}
    {entry : UInt8 × UInt8} (shows : entry ∈ instruction.shownFrom registers) :
    registers.get? entry.1 = some entry.2 := by
  cases instruction with
  | display register =>
      obtain ⟨value, found, rfl⟩ := List.mem_map.mp shows
      exact Option.mem_toList.mp found
  | _ => cases shows

/-- Doing what it should, an instruction leaves as many registers as there were. -/
theorem Does.count_eq {ram : Ram} {before after : Registers} {instruction : Instruction}
    {report : Report} (does : instruction.Does ram before after report) :
    after.count = before.count := by
  have lengths := congrArg List.length does.numbers
  have kept : (instruction.numbersAfter before.numbers).length = before.numbers.length := by
    cases instruction <;> simp [numbersAfter]
  rw [kept, Registers.numbers, Registers.numbers, List.length_map, List.length_map] at lengths
  exact lengths

/-! ### Execution -/

section Execution

variable {ram : Ram} {before : Registers} {instruction : Instruction}

/-- The first of the needed registers that does not exist is the one that is named. -/
theorem Outcome.of_first {register : UInt8} (front : List UInt8) {back : List UInt8}
    (needed : instruction.registersNeeded = front ++ register :: back)
    (exist : ∀ other ∈ front, other.toNat < before.count)
    (missing : before.get? register = none) :
    Outcome ram before instruction (.invalidRegister register) := by
  refine .refused ?_
  rw [needed, List.find?_append, List.find?_eq_none.mpr, Option.none_or, List.find?_cons_of_pos]
  · exact decide_eq_true (Registers.get?_eq_none_iff.mp missing)
  · intro other inside
    have := exist other inside
    rw [decide_eq_true_iff]
    omega

section Instructions

variable (instruction) (goesOn : instruction ≠ .exit) (stays : instruction ≠ .jump none)
  (silent : instruction.shownFrom before = [])

include goesOn stays silent

/-- Putting a value into a register has an outcome, with the three bytes of the instruction
passed. -/
theorem outcome_assign {register value : UInt8}
    (pc : instruction.pcAfter ram before = before.pc + 3)
    (needed : instruction.registersNeeded = [register])
    (numbers : instruction.numbersAfter before.numbers =
      before.numbers.set register.toNat value.toNat) :
    Outcome ram before instruction (before.assign register value) := by
  rw [Registers.assign]
  cases found : before.get? register with
  | none => exact .of_first [] needed (fun _ => nofun) found
  | some old =>
      refine .done goesOn ?_ (fun jumps => absurd jumps stays) ⟨?_, pc.symm, rfl, silent.symm⟩
      · intro other inside
        rw [needed, List.mem_singleton] at inside
        exact inside ▸ Registers.lt_count_of_get? found
      · rw [numbers]
        exact before.numbers_set register value

/-- Changing a register by another one has an outcome. The register that is changed is looked for
first. -/
theorem outcome_combine {target source : UInt8} {f : UInt8 → UInt8 → UInt8} (g : Int → Int → Int)
    (same : ∀ a b, numberOf (f a b) = g (numberOf a) (numberOf b) % 256)
    (pc : instruction.pcAfter ram before = before.pc + 4)
    (needed : instruction.registersNeeded = [target, source])
    (numbers : instruction.numbersAfter before.numbers =
      before.numbers.set target.toNat (g (before.numbers.getD target.toNat 0)
        (before.numbers.getD source.toNat 0) % 256)) :
    Outcome ram before instruction (before.combine target source f) := by
  rw [Registers.combine]
  cases first : before.get? target with
  | none => exact .of_first [] needed (fun _ => nofun) first
  | some old =>
      have exists_target := Registers.lt_count_of_get? first
      cases second : before.get? source with
      | none =>
          refine .of_first [target] needed ?_ second
          intro other inside
          rw [List.mem_singleton] at inside
          exact inside ▸ exists_target
      | some value =>
          refine .done goesOn ?_ (fun jumps => absurd jumps stays) ⟨?_, pc.symm, rfl, silent.symm⟩
          · intro other inside
            rw [needed, List.mem_cons, List.mem_singleton] at inside
            rcases inside with rfl | rfl
            · exact exists_target
            · exact Registers.lt_count_of_get? second
          · rw [numbers, Registers.getD_numbers first, Registers.getD_numbers second, ← same]
            exact before.numbers_set target _

end Instructions

/-- Executing an instruction has an outcome: the handlers **follow the rules**, one case for each
row of the table. -/
theorem outcome_execute (ram : Ram) (before : Registers) (instruction : Instruction) :
    Outcome ram before instruction (instruction.execute ram before) := by
  cases instruction with
  | exit => exact .halts rfl
  | store register value =>
      exact outcome_assign (.store register value) nofun nofun rfl rfl rfl rfl
  | load register value =>
      exact outcome_assign (.load register value) nofun nofun rfl rfl rfl rfl
  | add target source value =>
      exact outcome_combine (.add target source value) nofun nofun rfl
        (fun old other => old + other + value.toNat) (fun a b => numberOf_add a b value) rfl rfl rfl
  | sub target source value =>
      exact outcome_combine (.sub target source value) nofun nofun rfl
        (fun old other => old - other - value.toNat) (fun a b => numberOf_sub a b value) rfl rfl rfl
  | branchIf register value address =>
      cases address with
      | none => exact .done nofun (fun _ => nofun) nofun ⟨rfl, rfl, rfl, rfl⟩
      | some target =>
          rw [execute]
          by_cases holds : before.get? register = some value
          · rw [if_pos holds]
            exact .done nofun (fun _ => nofun) nofun ⟨rfl, (if_pos holds).symm, rfl, rfl⟩
          · rw [if_neg holds]
            exact .done nofun (fun _ => nofun) nofun ⟨rfl, (if_neg holds).symm, rfl, rfl⟩
  | jump address =>
      cases address with
      | some target => exact .done nofun (fun _ => nofun) nofun ⟨rfl, rfl, rfl, rfl⟩
      | none =>
          rw [execute]
          by_cases inside : ram.contains (before.pc + 1) = true
          · obtain ⟨target, holds⟩ := Ram.exists_holdsAt inside
            rw [holds.read_eq]
            refine .done nofun (fun _ => nofun) (fun _ => inside) ⟨rfl, ?_, rfl, rfl⟩
            rw [pcAfter, holds.getD_cells_eq]
            rfl
          · rw [Ram.read_of_not_contains inside]
            exact .astray rfl inside
  | display register =>
      rw [execute]
      cases found : before.get? register with
      | none =>
          refine .done nofun (fun _ => nofun) nofun ⟨rfl, rfl, rfl, ?_⟩
          rw [shownFrom, found]
          rfl
      | some value =>
          refine .done nofun (fun _ => nofun) nofun ⟨rfl, rfl, rfl, ?_⟩
          rw [shownFrom, found]
          rfl

/-- What an instruction leaves has as many registers and as many steps as before. A step is counted
by the machine, not by the handler. -/
theorem count_and_steps_of_execute {after : Registers} {report : Report}
    (executed : instruction.execute ram before = .next after report) :
    after.count = before.count ∧ after.steps = before.steps := by
  have outcome := outcome_execute ram before instruction
  rw [executed] at outcome
  cases outcome with
  | done _ _ _ does => exact ⟨does.count_eq, does.steps⟩

end Execution

end Instruction

end ByteMachine
