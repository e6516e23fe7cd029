import ByteMachine.Files.Disk
import ByteMachine.Proofs.Machine.Loaded
import ByteMachine.Proofs.Machine.Session

/-!
# Loading an image again

A machine has a `Shape` that nothing done to it can change: its profile, the number of its registers
and the size of its memory. Everything else is set anew when an image is loaded, except whether
tracing is on, so a machine that has just loaded an image is known from its shape and the image
alone. What was done to it before leaves no trace, however it ended, and what is done to it later
ends as it would with a machine that was made for the purpose.

## Main results

* `SameShape.perform`, `SameShape.session`: no action changes the shape.
* `SameShape.load_eq`: loading gives machines of one shape the same state.
* `load_erases_history`: a machine with a history behind a new one.
-/

namespace ByteMachine

namespace Machine

/-- Two machines have the **same shape**: the profile, the number of registers and the size of the
memory, which are fixed when a machine is made. -/
structure SameShape (first second : Machine) : Prop where
  profile_eq : second.profile = first.profile
  count_eq : second.registers.count = first.registers.count
  size_eq : second.ram.size = first.ram.size

variable {machine middle other : Machine}

/-! ### Registers and memory -/

/-- No action on registers changes how many there are, whether it fails or not. -/
theorem count_perform (registers : Registers) (action : Registers.Action) :
    (registers.perform action).1.count = registers.count := by
  cases action with
  | read index =>
      rw [Registers.perform]
      split <;> rfl
  | write index value =>
      rw [Registers.perform, Registers.writeAt]
      cases registers.place index with
      | error _ => rfl
      | ok place => exact List.length_set
  | reset => exact List.length_replicate
  | _ => rfl

theorem size_perform (ram : Ram) (action : Ram.Action) :
    (ram.perform action).1.size = ram.size := by
  cases action with
  | read address =>
      rw [Ram.perform]
      split <;> rfl
  | write address value =>
      rw [Ram.perform, Ram.write]
      by_cases inside : ram.contains address = true
      · rw [if_pos inside]
        exact List.length_set
      · rw [if_neg inside]
  | load image => exact Ram.size_load ..
  | clear => exact List.length_map _
  | hexdump width =>
      rw [Ram.perform]
      split <;> rfl
  | _ => rfl

/-! ### One action -/

namespace SameShape

theorem refl (machine : Machine) : SameShape machine machine :=
  ⟨rfl, rfl, rfl⟩

/-- Of machines that are changed one into the other all have one shape if each change keeps it. -/
theorem trans (one : SameShape machine middle) (two : SameShape middle other) :
    SameShape machine other :=
  ⟨two.profile_eq.trans one.profile_eq, two.count_eq.trans one.count_eq,
    two.size_eq.trans one.size_eq⟩

theorem next (machine : Machine) : SameShape machine machine.next :=
  ⟨machine.profile_next, machine.count_next, congrArg Ram.size machine.ram_next⟩

theorem load (machine : Machine) (image : List UInt8) : SameShape machine (machine.load image) :=
  ⟨rfl, machine.count_load image, by rw [ram_load, Ram.size_load]⟩

/-- **No action** changes the shape of a machine, so no program can, and no access from outside.
What a load makes of a machine depends on the shape alone. -/
theorem perform (machine : Machine) (action : Action) :
    SameShape machine (machine.perform action).machine :=
  holds_perform
    (fun middle same => same.trans (next middle))
    (fun middle image same => same.trans (load middle image))
    (fun _ same => same.trans ⟨rfl, List.length_replicate, List.length_map _⟩)
    (fun _ _ same => same.trans ⟨rfl, rfl, rfl⟩)
    (fun middle action same => same.trans ⟨rfl, count_perform middle.registers action, rfl⟩)
    (fun middle action same => same.trans ⟨rfl, rfl, size_perform middle.ram action⟩)
    (refl machine) action

/-- **No session** changes the shape, by induction on its actions. So a machine can be loaded again
at any time as if it were new. -/
theorem session (machine : Machine) (actions : List Action) :
    SameShape machine (machine.session actions).1 :=
  holds_session (fun middle action same => same.trans (perform middle action)) (refl machine)
    actions

/-! ### Loading -/

/-- Loading an image gives machines of one shape the **same state**, but for tracing, which is not
reset. -/
theorem load_eq (same : SameShape machine other) (image : List UInt8) :
    other.load image = (machine.load image).trace other.tracing := by
  have ram : other.ram.load image = machine.ram.load image := by
    rw [Ram.load_eq, Ram.load_eq, same.size_eq]
  have registers : other.registers.reset = machine.registers.reset := by
    rw [Registers.reset, Registers.reset, same.count_eq]
  simp only [Machine.load, Machine.reset, Ram.load_clear, ram, registers, same.profile_eq]
  rfl

/-- Machines of one shape reply the same to loading an image, and the same is printed. -/
theorem loadReply_eq (same : SameShape machine other) (image : List UInt8) :
    (other.loadReply image).answer = (machine.loadReply image).answer ∧
      (other.loadReply image).effects = (machine.loadReply image).effects := by
  rw [loadReply, loadReply, loadEffects, loadEffects, Ram.loadable_eq, Ram.loadable_eq, Ram.loadLog,
    Ram.loadLog, same.size_eq, same.profile_eq]
  exact ⟨rfl, rfl⟩

end SameShape

/-- A machine that is made of the profile and the sizes of another one has its shape. -/
theorem sameShape_of_create {choice : ProfileRef} {fresh : Machine}
    (chosen : choice.resolve = .ok machine.profile)
    (made : create choice machine.registers.count machine.ram.size = .ok fresh) :
    SameShape fresh machine := by
  rw [create, chosen, Registers.create, Ram.create] at made
  by_cases registers : (0 : Int) < machine.registers.count
  · by_cases ram : (0 : Int) < machine.ram.size
    · rw [if_pos registers, if_pos ram] at made
      cases made
      refine ⟨rfl, ?_, ?_⟩
      · exact List.length_replicate.symm
      · exact List.length_replicate.symm
    · rw [if_pos registers, if_neg ram] at made
      cases made
  · rw [if_neg registers] at made
    cases made

/-- **Loading erases history.** Take a machine and a new one that is made of the same profile and
the same sizes. Whatever has been done to the first, loading an image leaves it as loading the
image leaves the new one, except that tracing may be on, and tells the same. So everything that is
done later has the same results on both, with tracing set the same. A file that cannot be read
leaves the machine as it was. -/
theorem load_erases_history (machine : Machine) {choice : ProfileRef} {fresh : Machine}
    (chosen : choice.resolve = .ok machine.profile)
    (made : create choice machine.registers.count machine.ram.size = .ok fresh)
    (history : List Action) :
    let old := (machine.session history).1
    (∀ image, old.load image = (fresh.load image).trace old.tracing ∧
      (old.perform (.load image)).answer = (fresh.perform (.load image)).answer ∧
      (old.perform (.load image)).effects = (fresh.perform (.load image)).effects ∧
      ∀ enabled later, ((old.load image).trace enabled).session later =
        ((fresh.load image).trace enabled).session later) ∧
    ∀ (disk : Disk) path error, disk.readPlain path = .error error →
      (old.perform (.loadFile (disk.readPlain path))).machine = old := by
  intro old
  have shape : SameShape fresh old :=
    (sameShape_of_create chosen made).trans (SameShape.session machine history)
  refine ⟨fun image => ⟨shape.load_eq image, (shape.loadReply_eq image).1,
    (shape.loadReply_eq image).2, fun enabled later => ?_⟩, fun disk path error unread => ?_⟩
  · rw [shape.load_eq image]
    rfl
  · rw [unread]
    rfl

/-- A machine that has faulted, with tracing on and its memory written over, is as good as new
for the next image. -/
theorem exists_load_erases_history :
    let machine := zeroed .classic 2 4
    let history := [.trace true, .load [Mnemonic.store.opcode, 9, 1], .run none,
      .ram (.write 3 255), .registers (.setPc 7)]
    ∃ fresh, create (.named "classic") 2 4 = .ok fresh ∧
      (machine.session history).1.status ≠ .idle ∧
      (machine.session history).1.load [0] = (fresh.load [0]).trace true := by
  intro machine history
  have erased := @load_erases_history machine (.named "classic") _ rfl rfl history
  refine ⟨_, rfl, by decide, ?_⟩
  have tracing : (machine.session history).1.tracing = true := by decide
  rw [← tracing]
  exact (erased.1 [0]).1

end Machine

end ByteMachine
