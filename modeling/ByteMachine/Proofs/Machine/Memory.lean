import ByteMachine.Proofs.Disassembly.Columns
import ByteMachine.Proofs.Machine.Reload

/-!
# The memory as a map of bytes

Whatever is done to a memory, in any order and with any integers, it stays a row of as many bytes as
it was made with, and each of them is the one that was put there last. A write covers its own
address and no other. A clear covers all addresses, and so does a load, also where the image has
ended: what an older and longer image has left there is gone. Everything else covers nothing, and a
write that misses the memory puts its value nowhere.

A hexadecimal dump is checked by its text alone. Its lines are taken apart at the colon behind the
address, and the cells behind that are read back.

## Main results

* `Ram.getElem?_cells_perform`: a byte behind one action.
* `Ram.getElem?_cells_after`: a byte behind any number of actions.
* `Ram.getElem?_rows`, `Ram.flatMap_rows`: the rows of a dump, one by one and all together.
* `Ram.last_value_read`: all of it for a memory that has been made.
-/

namespace ByteMachine

/-- The low byte of a value, which is what a memory keeps of it. -/
def lowByte (value : Int) : UInt8 :=
  UInt8.ofNat (value % 256).toNat

/-- The low byte of a value is the value modulo 256, also for a negative one. -/
theorem toNat_lowByte (value : Int) : ((lowByte value).toNat : Int) = value % 256 := by
  rw [lowByte, UInt8.toNat_ofNat']
  omega

/-- The low byte of a byte is the byte itself, so reading and writing back changes nothing. -/
theorem lowByte_toNat (byte : UInt8) : lowByte byte.toNat = byte := by
  have same := toNat_lowByte byte.toNat
  have bound := byte.toNat_lt
  rw [← UInt8.toNat_inj]
  omega

/-- The bytes that a line of a dump shows behind its address, read back from their two digits
each. -/
def dumpedBytes (line : Text) : List UInt8 :=
  readCells (behindAddress line ++ [' '])

namespace Ram

/-- The value that an action puts at an address, if it **covers** it. Loading covers every address,
with zeros behind the image. -/
def Action.covers? (address : Int) : Action → Option Int
  | .write other value => if other = address then some value else none
  | .load image => some (image.getD address.toNat 0).toNat
  | .clear => some 0
  | _ => none

/-- The value that the **last** of some actions to cover an address puts there, and zero if none of
them does. -/
def lastValue (address : Int) (actions : List Action) : Int :=
  (actions.reverse.findSome? (Action.covers? address)).getD 0

/-- The memory **after** some actions, whether they have failed or not. The last one counts, for it
is performed on what the others have left. -/
def after (ram : Ram) (actions : List Action) : Ram :=
  actions.foldl (fun ram action => (ram.perform action).1) ram

variable {ram : Ram}

/-! ### Single bytes -/

@[simp] theorem size_zeroed (size : Nat) : (zeroed size).size = size :=
  List.length_replicate

/-- One action more is performed on the memory that the others have left. -/
theorem after_concat (ram : Ram) (actions : List Action) (action : Action) :
    ram.after (actions ++ [action]) = ((ram.after actions).perform action).1 :=
  List.foldl_concat ..

@[simp] theorem size_after (ram : Ram) (actions : List Action) :
    (ram.after actions).size = ram.size := by
  induction actions using List.reverseRecOn with
  | nil => rfl
  | append_singleton actions action ih => rw [after_concat, Machine.size_perform, ih]

/-- A byte of a memory that has loaded an image: that of the image, or zero behind its end. -/
theorem getElem?_cells_load {i : Nat} (inside : i < ram.size) (image : List UInt8) :
    (ram.load image).cells[i]? = some (image.getD i 0) := by
  rw [load_eq, List.getD_eq_getElem?_getD]
  by_cases held : i < image.length
  · have front : i < (image.take ram.size).length := by
      rw [List.length_take]
      omega
    rw [List.getElem?_append_left front, List.getElem?_take_of_lt inside,
      List.getElem?_eq_getElem held]
    rfl
  · have behind : (image.take ram.size).length ≤ i := by
      rw [List.length_take]
      omega
    rw [List.getElem?_append_right behind, List.length_take,
      List.getElem?_replicate_of_lt (by omega), List.getElem?_eq_none (by omega)]
    rfl

/-- A byte behind **one action** is the one that the action puts there, or the one that was there.
This is the step of the induction over all actions. -/
theorem getElem?_cells_perform {i : Nat} (inside : i < ram.size) (action : Action) :
    (ram.perform action).1.cells[i]? =
      ((action.covers? i).map lowByte).or ram.cells[i]? := by
  have short : i < ram.cells.length := inside
  cases action with
  | read address =>
      rw [perform]
      split <;> rfl
  | write address value =>
      rw [perform, write, Action.covers?]
      by_cases contained : ram.contains address = true
      · obtain ⟨positive, -⟩ := contains_iff.mp contained
        rw [if_pos contained, List.getElem?_set]
        by_cases here : address = i
        · rw [if_pos here, if_pos (by omega), if_pos (by omega)]
          rfl
        · rw [if_neg here, if_neg (by omega)]
          rfl
      · -- A write that misses the memory is at none of its addresses.
        have elsewhere : address ≠ i := by
          rintro rfl
          exact contained (contains_natCast.mpr inside)
        rw [if_neg contained, if_neg elsewhere]
        rfl
  | load image =>
      rw [perform, getElem?_cells_load inside]
      exact congrArg Option.some (lowByte_toNat _).symm
  | clear =>
      rw [perform, clear_eq]
      exact List.getElem?_replicate_of_lt inside
  | hexdump width =>
      rw [perform]
      split <;> rfl
  | _ => rfl

/-- A byte behind **any number of actions**: the one that was put there last, or the one that was
there before all of them. -/
theorem getElem?_cells_after {i : Nat} (inside : i < ram.size) (actions : List Action) :
    (ram.after actions).cells[i]? =
      ((actions.reverse.findSome? (Action.covers? i)).map lowByte).or ram.cells[i]? := by
  induction actions using List.reverseRecOn with
  | nil => rfl
  | append_singleton actions action ih =>
      have within : i < (ram.after actions).size := by rwa [size_after]
      rw [after_concat, getElem?_cells_perform within, ih, List.reverse_concat, List.findSome?_cons]
      cases action.covers? i <;> rfl

/-- A memory that held zeros holds at every address the value that was put there last. -/
theorem holdsAt_after_zeroed {size i : Nat} (inside : i < size) (actions : List Action) :
    ((zeroed size).after actions).HoldsAt i [lowByte (lastValue i actions)] := by
  have fits : i < (zeroed size).size := by rwa [size_zeroed]
  have found := getElem?_cells_after fits actions
  have zero : (zeroed size).cells[i]? = some 0 := List.getElem?_replicate_of_lt inside
  have value : ((zeroed size).after actions).cells[i]? = some (lowByte (lastValue i actions)) := by
    rw [found, zero, lastValue]
    cases actions.reverse.findSome? (Action.covers? i) <;> rfl
  obtain ⟨short, same⟩ := List.getElem?_eq_some_iff.mp value
  have front := List.drop_eq_getElem_cons short
  rw [same] at front
  exact holdsAt_of_drop_eq (contains_natCast.mpr short) front

/-! ### Accesses outside the memory -/

/-- Outside the memory nothing is read or written, and nothing changes. -/
theorem perform_of_not_contains {address : Int} (outside : ¬ ram.contains address = true) :
    ram.perform (.read address) = (ram, .failed (.access (ram.refuse address)), {}) ∧
      ∀ value, ram.perform (.write address value) =
        (ram, .failed (.access (ram.refuse address)), {}) := by
  refine ⟨?_, fun value => ?_⟩
  · rw [perform, read_of_not_contains outside]
  · rw [perform, write, if_neg outside]

/-! ### Rows of a dump -/

variable {width : Nat}

/-- The rows of a dump, one by one: each starts `width` bytes behind the one before it. -/
theorem getElem?_rows (positive : 0 < width) (offset : Nat) (bytes : List UInt8) (i : Nat) :
    (rows width offset bytes)[i]? =
      if i * width < bytes.length then
        some (offset + i * width, (bytes.drop (i * width)).take width)
      else none := by
  induction i generalizing offset bytes with
  | zero =>
      rw [rows, if_neg (Nat.ne_of_gt positive), Nat.zero_mul]
      cases bytes with
      | nil => rfl
      | cons byte bytes => rfl
  | succ i ih =>
      rw [rows, if_neg (Nat.ne_of_gt positive), Nat.succ_mul]
      cases bytes with
      | nil => rfl
      | cons byte rest =>
          have less : i * width < (byte :: rest).length - width ↔
              i * width + width < (byte :: rest).length := by omega
          have place : offset + width + i * width = offset + (i * width + width) := by omega
          rw [List.isEmpty_cons, if_neg Bool.false_ne_true, List.getElem?_cons_succ, ih,
            List.length_drop, List.drop_drop, place, Nat.add_comm width]
          simp only [less]

/-- The rows of a dump hold **all bytes**, one after the other, and none of them twice. By induction
on the bytes that are left. -/
theorem flatMap_rows (positive : 0 < width) (offset : Nat) (bytes : List UInt8) :
    (rows width offset bytes).flatMap Prod.snd = bytes := by
  fun_induction rows width offset bytes with
  | case1 => omega
  | case2 offset bytes _ empty => exact (List.isEmpty_iff.mp empty).symm
  | case3 offset bytes _ _ ih => rw [List.flatMap_cons, ih, List.take_append_drop]

/-! ### Lines of a dump -/

theorem addressColumn_rowText (row : Nat × List UInt8) :
    addressColumn (rowText row) = Text.address row.1 := by
  simp only [addressColumn, rowText, List.append_assoc]
  rw [List.takeWhile_append_of_pos Text.ne_colon_of_mem_address]
  exact List.append_nil _

/-- The bytes of a line of a dump are those of its row, so a dump can be read back. -/
theorem dumpedBytes_rowText (row : Nat × List UInt8) : dumpedBytes (rowText row) = row.2 := by
  have behind : behindAddress (rowText row) = Text.hexRow row.2 := by
    simp only [behindAddress, rowText, List.append_assoc]
    rw [List.dropWhile_append_of_pos Text.ne_colon_of_mem_address]
    rfl
  rw [dumpedBytes, behind]
  obtain ⟨offset, bytes⟩ := row
  cases bytes with
  | nil => rfl
  | cons byte bytes =>
      rw [Text.hexRow_append_space]
      have back := Text.readCells_append (byte :: bytes) 0
      rwa [List.replicate_zero, List.append_nil] at back

/-- A hexadecimal dump of positive width shows the whole memory: its lines hold all of the
bytes, one after the other, each has the offset of its first byte in front, and each but the last is
as wide as asked for. -/
theorem perform_hexdump (ram : Ram) {width : Int} (positive : 0 < width) :
    ∃ lines, ram.perform (.hexdump width) = (ram, .texts lines, {}) ∧
      lines.flatMap dumpedBytes = ram.cells ∧
      ∀ (i : Nat) line, lines[i]? = some line → addressColumn line = Text.address (i * width) ∧
        (dumpedBytes line).length ≤ width ∧
        (i + 1 < lines.length → (dumpedBytes line).length = width) := by
  obtain ⟨width, rfl⟩ := Int.eq_ofNat_of_zero_le (Int.le_of_lt positive)
  have wide : 0 < width := Int.natCast_pos.mp positive
  refine ⟨(rows width 0 ram.cells).map rowText, ?_, ?_, fun i line found => ?_⟩
  · rw [perform, hexdump?, if_neg (Int.ne_of_gt positive)]
    rfl
  · rw [List.flatMap_map]
    simp only [dumpedBytes_rowText]
    exact flatMap_rows wide 0 ram.cells
  · rw [List.getElem?_map, Option.map_eq_some_iff] at found
    obtain ⟨row, found, rfl⟩ := found
    have here := getElem?_rows wide 0 ram.cells i
    have next := getElem?_rows wide 0 ram.cells (i + 1)
    rw [found] at here
    split at here
    · obtain rfl := Option.some.inj here
      rw [addressColumn_rowText, dumpedBytes_rowText, List.length_take, List.length_drop,
        Nat.zero_add, Int.natCast_mul, List.length_map]
      refine ⟨rfl, by omega, fun more => ?_⟩
      rw [List.getElem?_eq_getElem more, Nat.succ_mul] at next
      split at next
      · omega
      · cases next
    · cases here

/-! ### A memory that is made -/

/-- **The last value that was put somewhere is read there.** A memory is made of a positive number
of bytes, and then anything is done to it, in any order and with any integers. It has that number of
bytes still. At each of its addresses it reads the value, modulo 256, of the last action that covers
the address, and zero if there is none. It loads as much of an image as fits. Outside of it reading
and writing fail and change nothing, and inside of it writing does not fail. The error of a failure
carries the address, unless that is further away than the memory is long and has too many digits to
be written: then the error is that it has. And a hexadecimal dump of positive width shows all of the
memory, in rows with their offsets, all but the last of which are as wide as asked for. -/
theorem last_value_read {size : Int} (positive : 0 < size) (actions : List Action) :
    ∃ fresh, create size = .ok fresh ∧
      let ram := fresh.after actions
      ram.size = size ∧
      (∀ address, 0 ≤ address → address < size →
        (∃ byte : UInt8, ram.perform (.read address) = (ram, .number byte.toNat, {}) ∧
          byte.toNat = lastValue address actions % 256) ∧
        ∀ value, (ram.perform (.write address value)).2 = (.done, {})) ∧
      (∀ image, (ram.perform (.load image)).2.1 = .number (min image.length size.toNat)) ∧
      (∀ address, ¬ (0 ≤ address ∧ address < size) → ∃ error,
        ram.perform (.read address) = (ram, .failed (.access error), {}) ∧
        (∀ value, ram.perform (.write address value) = (ram, .failed (.access error), {})) ∧
        (ram.Names address → error = ram.namedError address) ∧
        (¬ ram.Names address → error = .unnamed {})) ∧
      ∀ width, 0 < width → ∃ lines, ram.perform (.hexdump width) = (ram, .texts lines, {}) ∧
        lines.flatMap dumpedBytes = ram.cells ∧
        ∀ (i : Nat) line, lines[i]? = some line → addressColumn line = Text.address (i * width) ∧
          (dumpedBytes line).length ≤ width ∧
          (i + 1 < lines.length → (dumpedBytes line).length = width) := by
  obtain ⟨size, rfl⟩ := Int.eq_ofNat_of_zero_le (Int.le_of_lt positive)
  refine ⟨zeroed size, if_pos positive, ?_⟩
  intro ram
  have kept : ram.size = size := (size_after ..).trans (size_zeroed size)
  refine ⟨congrArg Int.ofNat kept, fun address low high => ?_, fun image => ?_,
    fun address outside => ?_, fun width wide => ram.perform_hexdump wide⟩
  · obtain ⟨i, rfl⟩ := Int.eq_ofNat_of_zero_le low
    have holds := holdsAt_after_zeroed (Int.ofNat_lt.mp high) actions
    refine ⟨⟨lowByte (lastValue i actions), ?_, toNat_lowByte _⟩, fun value => ?_⟩
    · rw [perform, holds.read_eq]
    · rw [perform, write, if_pos holds.contains]
  · rw [perform, loadable_eq, kept]
    rfl
  · have missed : ¬ ram.contains address = true := by rwa [contains_iff, kept]
    obtain ⟨read, write⟩ := perform_of_not_contains missed
    exact ⟨ram.refuse address, read, write, refuse_of_names, refuse_of_not_names⟩

/-- A longer image that was there before leaves nothing behind, a value below zero is written
modulo 256, and writes that miss the memory on either side are not read. -/
theorem exists_last_value_read :
    let actions : List Action := [.load [1, 2, 3, 4, 5, 6], .write (-1) 9, .write 4 9, .load [7],
      .write 2 (-1), .read 2, .write 3 5, .write 3 300, .dump 0 none]
    ∃ fresh, create 4 = .ok fresh ∧
      (fresh.after actions).cells = [7, 0, 255, 44] ∧
      (∀ address, 0 ≤ address → address < 4 → ∃ byte : UInt8,
        (fresh.after actions).perform (.read address) =
            (fresh.after actions, .number byte.toNat, {}) ∧
          byte.toNat = lastValue address actions % 256) ∧
      ∃ lines, (fresh.after actions).perform (.hexdump 3) =
          (fresh.after actions, .texts lines, {}) ∧
        lines.flatMap dumpedBytes = [7, 0, 255, 44] := by
  intro actions
  obtain ⟨fresh, made, -, reads, -, -, dumps⟩ := @last_value_read 4 (by decide) actions
  have cells : (fresh.after actions).cells = [7, 0, 255, 44] := by
    obtain rfl : zeroed 4 = fresh := Except.ok.inj made
    decide
  obtain ⟨lines, shown, all, -⟩ := dumps 3 (by decide)
  exact ⟨fresh, made, cells, fun address low high => (reads address low high).1, lines, shown,
    all.trans cells⟩

/-- Not every access that fails has an error with its address: that of the first integer which
is too long to be written has none. -/
theorem not_forall_missed_address :
    ¬ ∀ (size address : Int), 0 < size → ¬ (0 ≤ address ∧ address < size) →
      ∀ fresh, create size = .ok fresh → ∃ message, fresh.perform (.read address) =
        (fresh, .failed (.access (.outside ⟨address, size.toNat, message⟩)), {}) := by
  intro all
  have long : ¬ (zeroed 16).Names Text.firstLong := not_names_firstLong (by decide)
  have missed : ¬ (zeroed 16).contains Text.firstLong = true := mt names_of_contains long
  have outside : ¬ (0 ≤ Text.firstLong ∧ Text.firstLong < 16) := by
    rwa [contains_iff, size_zeroed] at missed
  obtain ⟨message, read⟩ := all 16 Text.firstLong (by decide) outside (zeroed 16) rfl
  rw [(perform_of_not_contains missed).1, refuse_of_not_names long] at read
  cases read

end Ram

end ByteMachine
