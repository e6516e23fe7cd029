import ByteMachine.Assembly.Context

/-!
# Encoding a line

The bytes of an instruction line: the opcode, and a byte for every operand that the profile
puts into the image. All operands are read before the first label is looked up. A branch
also has a site, the address right behind it.
-/

namespace ByteMachine

/-- A line **encoded**: its entry in the listing with its bytes, and its site if it is a
branch. -/
structure Encoded where
  entry : ListingEntry
  site : Option BranchSite
  deriving DecidableEq, Repr

namespace Context

/-- The byte that a branch to a label carries: its address, which must be less than 256. -/
def targetByte (label : Label) (place : Place) : Except Failure UInt8 :=
  if 0xFF < label.address then
    .error (place.reject (.addressTooLarge label.name label.address))
  else if label.address < 0 then .error .negativeAddress
  else .ok (UInt8.ofNat label.address.toNat)

/-- The bytes of operands in their order, and the last label among them, which is the one of the
branch site. -/
def encodeOperands (context : Context) (place : Place) :
    List Operand → Except Failure (List UInt8 × Option Label)
  | [] => .ok ([], none)
  | .register index _ :: operands => do
    let (bytes, target) ← context.encodeOperands place operands
    return (index :: bytes, target)
  | .immediate value _ :: operands => do
    let (bytes, target) ← context.encodeOperands place operands
    return (value :: bytes, target)
  | .label name :: operands => do
    let label ← context.findLabel name place
    let carried ←
      if context.profile.encodesTargets then (targetByte label place).map ([·]) else .ok []
    let (bytes, target) ← context.encodeOperands place operands
    return (carried ++ bytes, target.or (some label))

/-- **Encodes** a line whose bytes stand at `offset` of the program. A line that is no
instruction has no encoding. -/
def encodeLine (context : Context) (offset : Nat) (line : Line) : Except Failure Encoded :=
  match line.statement.mnemonic?.bind Mnemonic.ofName? with
  | none => .error (line.place.reject (.unknownMnemonic line.statement.mnemonic?))
  | some mnemonic => do
    let operands ← parseOperands mnemonic.definition line.place line.statement.tokens
    let (operandBytes, target) ← context.encodeOperands line.place operands
    let bytes := mnemonic.opcode :: operandBytes
    let site := target.map fun label =>
      ⟨label.name, offset + bytes.length, line.place.lineNum⟩
    return ⟨⟨line.place, offset, bytes⟩, site⟩

/-- Encodes a line that stands behind the program, and records its **site** without taking its
bytes into the program. -/
def encodeNext (context : Context) (line : Line) : Except Failure (Context × List UInt8) :=
  (context.encodeLine context.program.length line).map fun encoded =>
    ({ context with sites := context.sites ++ encoded.site.toList }, encoded.entry.bytes)

/-- Takes encoded lines into the context: their sites, their bytes and their entries in the
listing. -/
def extend (context : Context) (lines : List Encoded) : Context :=
  { context with
    sites := context.sites ++ lines.filterMap Encoded.site
    program := context.program ++ lines.flatMap fun line => line.entry.bytes
    listing := context.listing ++ lines.map Encoded.entry }

end Context

end ByteMachine
