import ByteMachine.Instruction.Table
import ByteMachine.Text.IntegerLiteral
import ByteMachine.Text.Numeral
import ByteMachine.Text.Quoted

/-!
# Errors in a program text

Why a program text is not assembled. A `SourceError` is found in one line and shows it; its
cause says what is wrong, and the kind of the cause sorts the causes for the caller. A
`Failure` is a source error or one of four failures that are not tied to a line: a decimal
numeral too long to be converted, a label that the first pass never placed, a label
whose address is no byte because it was placed by hand below zero, and an integer that the message
of a source error would have to show and that is too long to be written.

The integers that are meant by the last are the number of the line, the number of a line that is
pointed back to, the limit of labels and the addresses of labels. In a program text the lines are
counted, but readers and passes can be given any line, any table of labels and any limit, and so
these integers may be any (`SourceError.numbers`). They are written when the error is made, by
`Place.reject`.
-/

namespace ByteMachine

/-- The longest accepted label name. -/
def maxLabelLength : Nat := 20

/-- A **line** of a program text, as an error shows it: its number, counted from one, and its
text. The number zero stands for no line. -/
structure Place where
  lineNum : Int
  text : Text
  deriving DecidableEq, Repr

namespace SourceError

/-- The **kinds** of errors, by which a caller tells them apart. A message is for a reader only. -/
inductive Kind
  | operandCount
  | invalidRegister
  | invalidImmediate
  | unknownMnemonic
  | tooManyLabels
  | unresolvedLabel
  | duplicateLabel
  | invalidLabel
  | addressRange
  | internal
  deriving DecidableEq, Repr

namespace Kind

def all : List Kind :=
  [operandCount, invalidRegister, invalidImmediate, unknownMnemonic, tooManyLabels,
   unresolvedLabel, duplicateLabel, invalidLabel, addressRange, internal]

def name : Kind → String
  | operandCount => "OPERAND_COUNT"
  | invalidRegister => "INVALID_REGISTER"
  | invalidImmediate => "INVALID_IMMEDIATE"
  | unknownMnemonic => "UNKNOWN_MNEMONIC"
  | tooManyLabels => "TOO_MANY_LABELS"
  | unresolvedLabel => "UNRESOLVED_LABEL"
  | duplicateLabel => "DUPLICATE_LABEL"
  | invalidLabel => "INVALID_LABEL"
  | addressRange => "ADDRESS_RANGE"
  | internal => "INTERNAL"

def description : Kind → String
  | operandCount => "operand count"
  | invalidRegister => "invalid register"
  | invalidImmediate => "invalid immediate"
  | unknownMnemonic => "unknown instruction"
  | tooManyLabels => "too many labels"
  | unresolvedLabel => "unresolved label"
  | duplicateLabel => "duplicate label"
  | invalidLabel => "invalid label"
  | addressRange => "address out of range"
  | internal => "internal error"

end Kind

/-- What is **wrong** with a line, with the data that its message shows. Each constructor is one way
to be refused. -/
inductive Cause
  /-- An instruction that takes `expected` operands is written with `found`. -/
  | operandCount (mnemonic : Text) (expected found : Nat)
  | invalidRegister (token : Text)
  | registerTooLarge (token : Text)
  | notDecimal (token : Text)
  | immediateOutOfRange (token : Text)
  /-- A word that names no instruction, or a line without any. -/
  | unknownMnemonic (name : Option Text)
  | tooManyLabels (limit : Int)
  | labelNotFound (name : Text)
  /-- A label that is already declared on the line `first`. -/
  | duplicateLabel (name : Text) (first : Int)
  | invalidLabel (name : Text)
  | labelTooLong (name : Text)
  /-- A label that a branch should carry lies too high for one byte. -/
  | addressTooLarge (name : Text) (address : Int)
  | unknownOperandKind (kind : String)
  /-- The second pass meets a label at another address than the first pass. -/
  | labelMoved (name : Text) (first second : Int)
  deriving DecidableEq, Repr

namespace Cause

def kind : Cause → Kind
  | operandCount .. => .operandCount
  | invalidRegister _ => .invalidRegister
  | registerTooLarge _ => .invalidRegister
  | notDecimal _ => .invalidImmediate
  | immediateOutOfRange _ => .invalidImmediate
  | unknownMnemonic _ => .unknownMnemonic
  | tooManyLabels _ => .tooManyLabels
  | labelNotFound _ => .unresolvedLabel
  | duplicateLabel .. => .duplicateLabel
  | invalidLabel _ => .invalidLabel
  | labelTooLong _ => .invalidLabel
  | addressTooLarge .. => .addressRange
  | unknownOperandKind _ => .internal
  | labelMoved .. => .internal

/-- The integers that the message of a cause shows and that may be any. The numbers of operands are
not among them: they count tokens of one line. -/
def numbers : Cause → List Int
  | tooManyLabels limit => [limit]
  | duplicateLabel _ first => [first]
  | addressTooLarge _ address => [address]
  | labelMoved _ first second => [first, second]
  | _ => []

/-- An integer inside a message, which cannot be written if it has too many digits. -/
def shown (n : Int) : Except NumeralTooLong String :=
  (Text.numeral n).map String.ofList

/-- The message of a cause, without its line. It fails if one of its integers is too long. -/
def message : Cause → Except NumeralTooLong String
  | operandCount mnemonic expected found =>
    return s!"{String.ofList mnemonic} instruction malformed: expected {expected} operand(s), " ++
      s!"got {found}"
  | invalidRegister token => return s!"Invalid register: '{String.ofList token}'"
  | registerTooLarge token =>
    return s!"Register index does not fit in one byte: '{String.ofList token}'"
  | notDecimal token => return s!"Immediate is not a decimal integer: '{String.ofList token}'"
  | immediateOutOfRange token =>
    return s!"Immediate out of range 0-255: '{String.ofList token}'"
  | unknownMnemonic (some name) => return s!"Unknown instruction: {String.ofList name}"
  | unknownMnemonic none => return "Unknown instruction: None"
  | tooManyLabels limit => return s!"Too many labels defined (max {← shown limit})"
  | labelNotFound name => return s!"Label not found: {String.ofList name}"
  | duplicateLabel name first =>
    return s!"Label '{String.ofList name}' already defined on line {← shown first}"
  | invalidLabel name => return s!"Invalid label name: '{String.ofList name}'"
  | labelTooLong name =>
    return s!"Label name longer than {maxLabelLength} characters: '{String.ofList name}'"
  | addressTooLarge name address =>
    return s!"Label '{String.ofList name}' at {← shown address} " ++
      "does not fit in a one-byte address"
  | unknownOperandKind kind => return s!"Unknown operand kind {kind}"
  | labelMoved name first second =>
    return s!"Label '{String.ofList name}' moved between passes " ++
      s!"(pass 1: {← shown first}, pass 2: {← shown second})"

end Cause

end SourceError

/-- A **source error**: what is wrong, and on which line of the program text. Its message shows the
line. -/
structure SourceError where
  cause : SourceError.Cause
  place : Place
  deriving DecidableEq, Repr

namespace SourceError

def kind (error : SourceError) : Kind :=
  error.cause.kind

/-- The **integers** that the message of an error shows and that may be any: the number of its line,
and those of its cause. -/
def numbers (error : SourceError) : List Int :=
  error.place.lineNum :: error.cause.numbers

/-- Whether the message of an error can be written: none of the integers that it shows is too
long. -/
def writable (error : SourceError) : Bool :=
  error.numbers.all Text.isShort

/-- The **message** of an error: the number of the line in front, unless it is zero, and the
quoted line behind, unless it is empty. There is none if it would have to show an integer that is
too long. -/
def message (error : SourceError) : Except NumeralTooLong String := do
  let number ←
    if error.place.lineNum = 0 then pure ""
    else pure s!"Line {← Cause.shown error.place.lineNum}: "
  let line :=
    if error.place.text = [] then ""
    else s!" (line: {String.ofList (Text.quoted (Text.trim error.place.text))})"
  return number ++ (← error.cause.message) ++ line

end SourceError

/-- Why a program text, or a part of it, is **not assembled**: it was rejected with a source error,
or the assembly broke off with an error that names no line. -/
inductive Failure
  | rejected (error : SourceError)
  /-- A decimal numeral of `count` digits, which is more than `maxDecimalDigits`. -/
  | tooManyDigits (count : Nat)
  /-- A label that is declared in the second pass and was not in the first. -/
  | unplacedLabel (name : Text)
  /-- A label that a branch should carry lies below zero. -/
  | negativeAddress
  /-- A source error whose message would have to show an integer that is too long. -/
  | unwritable (error : NumeralTooLong)
  deriving DecidableEq, Repr

def Failure.message : Failure → String
  | .rejected error =>
    match error.message with
    | .ok message => message
    | .error tooLong => tooLong.message
  | .tooManyDigits count =>
    s!"Exceeds the limit ({maxDecimalDigits} digits) for integer string conversion: " ++
      s!"value has {count} digits; use sys.set_int_max_str_digits() to increase the limit"
  | .unplacedLabel name => String.ofList (Text.quoted name)
  | .negativeAddress => "byte must be in range(0, 256)"
  | .unwritable error => error.message

/-- **Rejects** a line for a given cause. The message is written when the error is made, and where
one of its integers is too long for that, this is the failure. -/
def Place.reject (place : Place) (cause : SourceError.Cause) : Failure :=
  let error : SourceError := ⟨cause, place⟩
  if error.writable then .rejected error else .unwritable {}

end ByteMachine
