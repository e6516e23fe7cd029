import ByteMachine.Text.Numeral

/-!
# Registers

The register file: a number of byte registers that is fixed when the file is made, the
program counter and the count of the instructions executed so far.

An instruction names a register by its place, and `get?` and `set` serve it. From outside a
register may be named by any integer: one below zero counts from the end, down to the first
register, and every other integer that names no register is an error.
-/

namespace ByteMachine

/-- A number of registers or of bytes of RAM that is not positive. -/
inductive SizeError
  | registerCount (count : Int)
  | ramSize (size : Int)
  deriving DecidableEq, Repr

/-- What is said about a number that is not positive. Of one that is too long to be written only
that is said. -/
def notPositive (what : String) (number : Int) : String :=
  match Text.numeral number with
  | .ok numeral => s!"{what} must be positive, got {String.ofList numeral}"
  | .error error => error.message

def SizeError.message : SizeError → String
  | .registerCount count => notPositive "Register count" count
  | .ramSize size => notPositive "RAM size" size

/-- An integer that names no register, which only an access from outside can use. -/
inductive IndexError
  | outOfRange
  /-- The integer does not even fit in a signed word of 64 bits. -/
  | tooLarge
  deriving DecidableEq, Repr

/-- The message about a wrong register index. -/
def IndexError.message : IndexError → String
  | .outOfRange => "bytearray index out of range"
  | .tooLarge => "cannot fit 'int' into an index-sized integer"

/-- The integers from minus this bound up to it, which is left out, fit in a signed word. -/
def signedWordBound : Int := 0x8000000000000000

/-- The number of registers where no other is chosen. -/
def defaultRegisterCount : Int := 20

/-- The register file of a machine, with the program counter and the count of steps. The program
counter is any integer, since it may be set from outside. -/
structure Registers where
  values : List UInt8
  pc : Int := 0
  steps : Nat := 0
  deriving DecidableEq, Repr

namespace Registers

/-- A register file of `count` registers that hold zero. -/
def zeroed (count : Nat) : Registers :=
  ⟨List.replicate count 0, 0, 0⟩

/-- A register file of a positive number of registers. -/
def create (count : Int) : Except SizeError Registers :=
  if 0 < count then .ok (zeroed count.toNat) else .error (.registerCount count)

def count (registers : Registers) : Nat :=
  registers.values.length

def get? (registers : Registers) (index : UInt8) : Option UInt8 :=
  registers.values[index.toNat]?

/-- Changes the value of a register, and nothing if it does not exist. -/
def set (registers : Registers) (index value : UInt8) : Registers :=
  { registers with values := registers.values.set index.toNat value }

/-- Zero in every register, in the program counter and in the count of steps. -/
def reset (registers : Registers) : Registers :=
  zeroed registers.count

/-! ### Access from outside -/

/-- Whether an integer is the place of a register. Instructions ask this before they use one. -/
def valid (registers : Registers) (index : Int) : Bool :=
  0 ≤ index && index < registers.count

/-- The place of the register that an integer names, or the error about it. -/
def place (registers : Registers) (index : Int) : Except IndexError Nat :=
  if index < -signedWordBound ∨ signedWordBound ≤ index then .error .tooLarge
  else
    let place := if index < 0 then index + registers.count else index
    if registers.valid place then .ok place.toNat else .error .outOfRange

/-- The value of the register that an integer names, from outside: a negative integer counts from
the end. -/
def readAt (registers : Registers) (index : Int) : Except IndexError UInt8 := do
  let place ← registers.place index
  match registers.values[place]? with
  | some value => return value
  | none => throw .outOfRange

/-- Changes the register that an integer names to a value modulo 256, from outside. -/
def writeAt (registers : Registers) (index value : Int) : Except IndexError Registers := do
  let place ← registers.place index
  let byte := UInt8.ofNat (value % 256).toNat
  return { registers with values := registers.values.set place byte }

/-! ### Shown -/

def indexed (registers : Registers) : List (UInt8 × Nat) :=
  registers.values.zipIdx

/-- The program counter and every register that is not zero, in one row. A trace shows it for each
instruction. -/
def display (registers : Registers) : Text :=
  let nonzero := registers.indexed.filter fun entry => entry.1 ≠ 0
  Text.joinWith [' '] <|
    ("PC=".toList ++ Text.address registers.pc) ::
      nonzero.map fun entry =>
        'R' :: Text.decimal entry.2 ++ '=' :: Text.decimal entry.1.toNat

/-- The row of the register file with its name around it. -/
def describe (registers : Registers) : Text :=
  "Registers(".toList ++ registers.display ++ [')']

/-- Every register, one a line, as it is printed behind a run. -/
def table (registers : Registers) : Text :=
  Text.unlines <| registers.indexed.map fun entry =>
    'R' :: Text.decimal entry.2 ++ ": ".toList ++ Text.decimal entry.1.toNat

end Registers

end ByteMachine
