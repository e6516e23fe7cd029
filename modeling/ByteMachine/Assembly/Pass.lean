import ByteMachine.Assembly.Encode
import ByteMachine.Log

/-!
# The two passes

The first pass places the labels: it walks over the lines with an address, declares each
label at the address reached, and moves on by the size of each instruction. The second pass
encodes the instructions; it walks with the same sizes, and a label that it meets at another
address than the first pass is an error.

A pass that fails keeps what it has done before the line it fails on, so each of them returns
the context beside its result.
-/

namespace ByteMachine

/-- The outcome of a **pass**: the context it leaves, whether it fails or not, its log, and
its result. -/
structure Pass (α : Type) where
  context : Context
  log : List LogRecord
  result : Except Failure α

/-- The name under which the assembler logs its messages. -/
def assemblyLogSource : String := "soc8_asm.assembler"

namespace Context

/-! ### Placing the labels -/

/-- Places the labels of `lines`, the first of which stands at `address`. The result is the
address behind the last line. -/
def placeLabels (context : Context) (address : Nat) :
    List Line → Context × Except Failure Nat
  | [] => (context, .ok address)
  | line :: lines =>
    match line.statement with
    | .blank => context.placeLabels address lines
    | .label name =>
      match context.addLabel name address line.place with
      | .ok extended => extended.placeLabels address lines
      | .error failure => (context, .error failure)
    | .instruction _ _ => context.placeLabels (address + context.sizeOf line.statement) lines

/-- The **first pass**: it declares the labels of all lines and gives the size of the program, by
the sizes of the profile. -/
def firstPass (context : Context) (lines : List Line) : Pass Nat :=
  match context.placeLabels 0 lines with
  | (context, .ok address) =>
    let message :=
      s!"Pass 1: {context.labels.length} label(s), {address} byte(s) counted"
    ⟨context, [⟨.debug, assemblyLogSource, message⟩], .ok address⟩
  | (context, .error failure) => ⟨context, [], .error failure⟩

/-! ### Encoding the instructions -/

/-- Checks a label that the second pass meets at `address`: it must have been declared by the first
pass, and at this address. -/
def checkLabel (context : Context) (address : Nat) (name : Text) (place : Place) :
    Except Failure Unit :=
  match context.label? name with
  | none => .error (.unplacedLabel name)
  | some label =>
    if label.address = address then .ok ()
    else .error (place.reject (.labelMoved name label.address address))

/-- Encodes the instructions of `lines`. The first line stands at `offset` of the program and
at `address` for the labels, which differ under fixed sizing. The lines that are encoded
before a failure are kept. -/
def encodeLines (context : Context) (offset address : Nat) :
    List Line → List Encoded × Except Failure Unit
  | [] => ([], .ok ())
  | line :: lines =>
    match line.statement with
    | .blank => context.encodeLines offset address lines
    | .label name =>
      match context.checkLabel address name line.place with
      | .ok () => context.encodeLines offset address lines
      | .error failure => ([], .error failure)
    | .instruction _ _ =>
      match context.encodeLine offset line with
      | .ok encoded =>
        let (encodedLines, result) :=
          context.encodeLines (offset + encoded.entry.bytes.length)
            (address + context.sizeOf line.statement) lines
        (encoded :: encodedLines, result)
      | .error failure => ([], .error failure)

/-- The **second pass**. It encodes the instruction lines behind what is there already, and its
result is the whole program so far. -/
def secondPass (context : Context) (lines : List Line) : Pass (List UInt8) :=
  let (encodedLines, result) := context.encodeLines context.program.length 0 lines
  let context := context.extend encodedLines
  match result with
  | .ok () =>
    let message := s!"Pass 2: emitted {context.program.length} byte(s)"
    ⟨context, [⟨.debug, assemblyLogSource, message⟩], .ok context.program⟩
  | .error failure => ⟨context, [], .error failure⟩

end Context

end ByteMachine
