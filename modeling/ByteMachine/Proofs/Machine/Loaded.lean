import ByteMachine.Machine.Step
import ByteMachine.Proofs.Assembly.Image
import ByteMachine.Proofs.Machine.Fetch

/-!
# An assembled program in RAM

What the machine finds in a memory that holds the image of a program with zeros behind it. At
the boundary of an instruction line stands the encoding of its instruction, and the next
boundary is right behind that. At the end of the image stands a zero if there is room for one,
and a zero is the opcode that halts.

## Main results

* `Ram.holdsAt_load`, `Ram.holdsAt_behind`: what stands in the memory, also where the image is
  longer than that.
* `Assembles.fetch_boundary`, `Ram.fetch_behind`: what is fetched.
* `Assembles.contains_boundary_iff`: which boundaries lie in the memory.
* `Assembles.boundary_succ`, `Assembles.boundary_lt_boundary`: the boundaries behind an instruction.
-/

namespace ByteMachine

/-! ### Memory -/

/-- Loading does not change the size of the memory: what does not fit is dropped. -/
@[simp] theorem Ram.size_load (ram : Ram) (image : List UInt8) :
    (ram.load image).size = ram.size := by
  rw [Ram.load_eq, Ram.size, List.length_append, List.length_take, List.length_replicate]
  omega

/-- Nothing is left of a memory that is loaded, so it may be cleared before that. -/
@[simp] theorem Ram.load_clear (ram : Ram) (image : List UInt8) :
    ram.clear.load image = ram.load image := by
  have size : ram.clear.size = ram.size := List.length_map _
  rw [Ram.load_eq, size, Ram.load_eq]

/-- The memory of a machine that has loaded an image is its memory, loaded with that image. -/
@[simp] theorem Machine.ram_load (machine : Machine) (image : List UInt8) :
    (machine.load image).ram = machine.ram.load image :=
  machine.ram.load_clear image

/-- An image that fits is loaded with zeros behind it, up to the size of the memory. -/
theorem Ram.cells_load {ram : Ram} {image : List UInt8} (fits : image.length ≤ ram.size) :
    (ram.load image).cells = image ++ List.replicate (ram.size - image.length) 0 := by
  rw [Ram.load_eq, List.take_of_length_le fits]

/-- Bytes of an image that end in the memory **stand** there, whatever is dropped behind them. So a
memory that is too short still runs the beginning of the image. -/
theorem Ram.holdsAt_load {ram : Ram} {image front bytes back : List UInt8}
    (split : image = front ++ (bytes ++ back)) (inside : front.length + bytes.length ≤ ram.size) :
    (ram.load image).HoldsAt front.length bytes := by
  have front_fits : front.length ≤ ram.size := by omega
  have bytes_fit : bytes.length ≤ ram.size - front.length := by omega
  refine ⟨front, back.take (ram.size - front.length - bytes.length) ++
    List.replicate (ram.size - image.length) 0, ?_, rfl⟩
  rw [Ram.load_eq, split, List.take_append, List.take_of_length_le front_fits, List.take_append,
    List.take_of_length_le bytes_fit, List.append_assoc, List.append_assoc]

/-- Right behind an image **stands** a zero, if there is room for one, and that is the opcode of
`EXIT`. -/
theorem Ram.holdsAt_behind {ram : Ram} {image : List UInt8} (room : image.length < ram.size) :
    (ram.load image).HoldsAt image.length [0] := by
  have behind : ram.size - image.length = (ram.size - image.length - 1) + 1 := by omega
  refine ⟨image, List.replicate (ram.size - image.length - 1) 0, ?_, rfl⟩
  rw [Ram.cells_load (Nat.le_of_lt room), behind, List.replicate_succ]
  rfl

/-- Right behind an image the machine fetches the instruction that halts, if there is room: its
opcode is zero. -/
theorem Ram.fetch_behind {ram : Ram} {image : List UInt8} {behind : Nat} (profile : Profile)
    (holds : ram.cells = image ++ List.replicate behind 0) (room : image.length < ram.size) :
    ram.fetch profile image.length = .ok .exit := by
  have size : ram.size = image.length + behind := by
    rw [Ram.size, holds, List.length_append, List.length_replicate]
  obtain ⟨more, rfl⟩ := Nat.exists_eq_succ_of_ne_zero (show behind ≠ 0 by omega)
  refine Ram.fetch_of_holdsAt trivial ⟨image, List.replicate more 0, ?_, rfl⟩
  rw [holds, List.replicate_succ]
  rfl

/-! ### The image in memory -/

/-- The bytes of a program split at the boundary of an instruction: before it, its own, and behind
it. -/
theorem imageOf_eq_append {program : List Written} {written : Written} {index : Nat}
    (there : program[index]? = some written) (targets : Bool) (byteOf : Text → UInt8) :
    imageOf targets byteOf program =
      imageOf targets byteOf (program.take index) ++
        ((written.encode targets byteOf).bytes ++
          imageOf targets byteOf (program.drop (index + 1))) := by
  obtain ⟨short, rfl⟩ := List.getElem?_eq_some_iff.mp there
  have split : program = program.take index ++ program[index] :: program.drop (index + 1) := by
    rw [List.getElem_cons_drop, List.take_append_drop]
  conv_lhs => rw [split, imageOf, List.flatMap_append, List.flatMap_cons]
  rfl

namespace Assembles

variable {profile : Profile} {maxLabels : Int} {source : Text} {program : List Written}
  {context : Context} (assembles : Assembles profile maxLabels source program context)

include assembles

/-- The **boundary** behind an instruction is right behind its bytes, so the next instruction starts
there. -/
theorem boundary_succ {written : Written} {index : Nat}
    (there : program[index]? = some written) :
    context.boundary (index + 1) = context.boundary index +
      (written.encode profile.encodesTargets context.byteOf).length := by
  rw [assembles.boundary_eq, assembles.boundary_eq, List.take_add_one, there, codeSize_append,
    Written.length_encode]
  rfl

/-- The boundary of every index behind the last instruction is the end of the image. -/
theorem boundary_of_length_le {index : Nat} (behind : program.length ≤ index) :
    context.boundary index = context.program.length := by
  rw [assembles.boundary_eq, List.take_of_length_le behind, assembles.length_program_eq]

/-- The boundary of an instruction lies before the end of the image, for an instruction has a
byte. -/
theorem boundary_lt {index : Nat} (inside : index < program.length) :
    context.boundary index < context.program.length := by
  have there := List.getElem?_eq_getElem inside
  rw [assembles.program_eq, imageOf_eq_append there, assembles.boundary_eq,
    List.length_append, length_imageOf, List.length_append, Instruction.length_bytes,
    Instruction.length]
  omega

/-- No boundary lies behind the image, not even those of indices that have no instruction. -/
theorem boundary_le (index : Nat) : context.boundary index ≤ context.program.length := by
  by_cases inside : index < program.length
  · exact Nat.le_of_lt (assembles.boundary_lt inside)
  · exact Nat.le_of_eq (assembles.boundary_of_length_le (Nat.le_of_not_lt inside))

/-- The boundary of an instruction lies **before** every later one, so boundaries tell instructions
apart. -/
theorem boundary_lt_boundary {index later : Nat} (before : index < later)
    (inside : index < program.length) : context.boundary index < context.boundary later := by
  induction later with
  | zero => exact absurd before (Nat.not_lt_zero index)
  | succ later ih =>
      by_cases short : later < program.length
      · have behind := assembles.boundary_succ (List.getElem?_eq_getElem short)
        rw [Instruction.length] at behind
        rcases Nat.lt_succ_iff_lt_or_eq.mp before with less | rfl
        · have earlier := ih less
          omega
        · omega
      · rw [assembles.boundary_of_length_le (show program.length ≤ later + 1 by omega)]
        exact assembles.boundary_lt inside

variable {ram : Ram} {behind : Nat}

/-- At the boundary of an instruction the machine **fetches** its encoding from a memory that holds
the image. -/
theorem fetch_boundary (holds : ram.cells = context.program ++ List.replicate behind 0)
    {written : Written} {index : Nat} (there : program[index]? = some written) :
    ram.fetch profile (context.boundary index) =
      .ok (written.encode profile.encodesTargets context.byteOf) := by
  have front : (imageOf profile.encodesTargets context.byteOf (program.take index)).length =
      context.boundary index := by
    rw [length_imageOf, assembles.boundary_eq]
  refine Ram.fetch_of_holdsAt (written.fits_encode _ _)
    ⟨imageOf profile.encodesTargets context.byteOf (program.take index),
      imageOf profile.encodesTargets context.byteOf (program.drop (index + 1)) ++
        List.replicate behind 0, ?_, congrArg Nat.cast front.symm⟩
  rw [holds, assembles.program_eq, imageOf_eq_append there, List.append_assoc,
    List.append_assoc]

/-- A boundary lies **in the memory** exactly if it is that of an instruction or there is room
behind the image. -/
theorem contains_boundary_iff (fits : context.program.length ≤ ram.size) {index : Nat} :
    ram.contains (context.boundary index) = true ↔
      index < program.length ∨ context.program.length < ram.size := by
  rw [Ram.contains_natCast]
  by_cases inside : index < program.length
  · have before := assembles.boundary_lt inside
    omega
  · rw [assembles.boundary_of_length_le (Nat.le_of_not_lt inside)]
    omega

end Assembles

end ByteMachine
