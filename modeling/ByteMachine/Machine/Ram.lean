import ByteMachine.Log
import ByteMachine.Machine.Registers

/-!
# RAM

The memory of the machine: a row of bytes whose number never changes. An image is loaded at
its beginning, the bytes behind the image become zero, and what does not fit is dropped.
An access outside the memory is an error and changes nothing.

The error names the address in its message, in decimal. An integer that is too long for that cannot
be named, so an access there fails as well, but for another reason: see `Ram.refuse`.
-/

namespace ByteMachine

/-- An address outside a memory of `size` bytes, with the message that names it. The message is
written when the error is made. -/
structure AddressError where
  address : Int
  size : Nat
  message : String
  deriving DecidableEq, Repr

/-- The message about the address that a numeral stands for. -/
def outsideMessage (numeral : Text) (size : Nat) : String :=
  s!"Address {String.ofList numeral} outside RAM (size {size})"

/-- Why a byte is not **accessed**: the address lies outside, or it is too long even to be shown. -/
inductive AccessError
  | outside (error : AddressError)
  /-- The address lies outside the memory, and the message would have to name it. -/
  | unnamed (error : NumeralTooLong)
  deriving DecidableEq, Repr

def AccessError.message : AccessError → String
  | outside error => error.message
  | unnamed error => error.message

/-- The error about the address, if there is one to be shown. A fault is caused by that and not by
the error itself. -/
def AccessError.named : AccessError → Except NumeralTooLong AddressError
  | outside error => .ok error
  | unnamed error => .error error

/-- The number of bytes of RAM where no other is chosen. -/
def defaultRamSize : Int := 256

def ramLogSource : String := "soc8_emulator.mem.memory"

/-- The memory of a machine. The number of its bytes is fixed when the machine is made. -/
structure Ram where
  cells : List UInt8
  deriving DecidableEq, Repr

namespace Ram

/-- A memory of `size` bytes that hold zero. -/
def zeroed (size : Nat) : Ram :=
  ⟨List.replicate size 0⟩

/-- A memory of a positive number of bytes. -/
def create (size : Int) : Except SizeError Ram :=
  if 0 < size then .ok (zeroed size.toNat) else .error (.ramSize size)

def size (ram : Ram) : Nat :=
  ram.cells.length

/-- Whether an address lies in the memory, from zero on and below the size. A negative address never
does. -/
def contains (ram : Ram) (address : Int) : Bool :=
  0 ≤ address && address < ram.size

/-! ### Single bytes -/

/-- The numeral of an address in a message. One that goes no further than the memory counts bytes
that are there, so it is not too long. -/
def addressNumeral (ram : Ram) (address : Int) : Except NumeralTooLong Text :=
  if address.natAbs ≤ ram.size then .ok (Text.signedDecimal address) else Text.numeral address

/-- **Refuses** an access to an address outside the memory. Making the error writes its message, and
where the message cannot be written that is the error. -/
def refuse (ram : Ram) (address : Int) : AccessError :=
  match ram.addressNumeral address with
  | .ok numeral =>
    .outside { address, size := ram.size, message := outsideMessage numeral ram.size }
  | .error error => .unnamed error

/-- The byte at an address, or the error about the address. -/
def read (ram : Ram) (address : Int) : Except AccessError UInt8 :=
  if ram.contains address then
    match ram.cells[address.toNat]? with
    | some byte => .ok byte
    | none => .error (ram.refuse address)
  else .error (ram.refuse address)

/-- Changes the byte at an address to a value modulo 256, or gives the error about the address. -/
def write (ram : Ram) (address value : Int) : Except AccessError Ram :=
  if ram.contains address then
    .ok ⟨ram.cells.set address.toNat (UInt8.ofNat (value % 256).toNat)⟩
  else .error (ram.refuse address)

/-! ### The whole memory -/

/-- Puts zero in the place of every byte, and leaves the size as it is. -/
def clear (ram : Ram) : Ram :=
  ⟨ram.cells.map fun _ => 0⟩

/-- Puts bytes in the place of as many bytes at the beginning of the memory. The rest stays, so the
memory does not change its size if the bytes fit. -/
def overwrite (ram : Ram) (bytes : List UInt8) : Ram :=
  ⟨bytes ++ ram.cells.drop bytes.length⟩

/-- The part of an image that fits: what is behind the end of the memory is cut off before anything
is written. -/
def fitting (ram : Ram) (image : List UInt8) : List UInt8 :=
  if ram.size < image.length then image.take ram.size else image

/-- The number of bytes of an image that fit, which is what loading returns. -/
def loadable (ram : Ram) (image : List UInt8) : Nat :=
  (ram.fitting image).length

/-- **Loads** an image: the memory is cleared, and its first bytes are those of the image that
fit. -/
def load (ram : Ram) (image : List UInt8) : Ram :=
  ram.clear.overwrite (ram.fitting image)

/-- The log of loading an image: a warning if something of the image was dropped, and nothing
otherwise. -/
def loadLog (ram : Ram) (image : List UInt8) : List LogRecord :=
  if ram.size < image.length then
    [⟨.warning, ramLogSource,
      s!"Program exceeds RAM size: {image.length} bytes, {image.length - ram.size} dropped"⟩]
  else []

theorem clear_eq (ram : Ram) : ram.clear = zeroed ram.size := by
  rw [clear, zeroed, size, List.map_const']

/-- The part of an image that fits is its beginning, as long as the memory, or all of it. -/
theorem fitting_eq (ram : Ram) (image : List UInt8) : ram.fitting image = image.take ram.size := by
  rw [fitting]
  split
  · rfl
  · rw [List.take_of_length_le (Nat.le_of_not_lt ‹_›)]

/-- As many bytes of an image fit as there are in the image and in the memory. -/
theorem loadable_eq (ram : Ram) (image : List UInt8) :
    ram.loadable image = min image.length ram.size := by
  rw [loadable, fitting_eq, List.length_take, Nat.min_comm]

/-- A memory that has loaded an image holds the beginning of the image and then zeros: nothing
of an earlier image is left, and there are as many bytes as before. -/
theorem load_eq (ram : Ram) (image : List UInt8) :
    ram.load image =
      ⟨image.take ram.size ++ List.replicate (ram.size - image.length) 0⟩ := by
  rw [load, overwrite, fitting_eq, clear_eq, zeroed, List.drop_replicate, List.length_take]
  congr 3
  omega

/-! ### Inspection -/

/-- A bound of a part of the memory: one below zero counts from the end, and both ends of
the memory limit it. -/
def bound (ram : Ram) (index : Int) : Nat :=
  if index < 0 then (index + ram.size).toNat else min index.toNat ram.size

/-- The **part** of the memory between two bounds, to its end if there is no second one. -/
def dump (ram : Ram) (start : Int) (stop : Option Int) : List UInt8 :=
  let first := ram.bound start
  let last := match stop with
    | some index => ram.bound index
    | none => ram.size
  (ram.cells.take last).drop first

/-- Cuts bytes into **rows** of `width`, each with the offset of its first byte. The last row may be
shorter. -/
def rows (width offset : Nat) (bytes : List UInt8) : List (Nat × List UInt8) :=
  if width = 0 then []
  else if bytes.isEmpty then []
  else (offset, bytes.take width) :: rows width (offset + width) (bytes.drop width)
termination_by bytes.length
decreasing_by
  rename_i positive nonempty
  have longer : bytes.length ≠ 0 := by simpa using nonempty
  simp only [List.length_drop]
  omega

def rowText (row : Nat × List UInt8) : Text :=
  Text.address row.1 ++ ": ".toList ++ Text.hexRow row.2

/-- The memory in rows of `width` bytes; none if the width is negative, and `none` if it is
zero. -/
def hexdump? (ram : Ram) (width : Int) : Option (List Text) :=
  if width = 0 then none else some ((rows width.toNat 0 ram.cells).map rowText)

end Ram

end ByteMachine
