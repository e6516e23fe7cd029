import ByteMachine.Source.Error

/-!
# Operands

What the operands of an instruction may look like. A register is `R` or `r` and a decimal
index that fits in one byte, an immediate value is a decimal numeral from 0 to 255 that may
carry a sign, and a label is a name of at most `maxLabelLength` characters. Each of them may
end in one line feed, which belongs to the token and not to its value.

`parseOperands` reads all operands of an instruction: their number is checked first, then
each of them in the order in which they are written.
-/

namespace ByteMachine

/-- An **operand** as it is written, with the value that it stands for. A label stands for itself
until it is looked up. -/
inductive Operand
  | register (index : UInt8) (token : Text)
  | immediate (value : UInt8) (token : Text)
  | label (name : Text)
  deriving DecidableEq, Repr

def registerPrefixes : List Char := ['R', 'r']

/-! ### Numerals and names -/

/-- The **digits** of a token: the token without a line feed at its end, if that is one or
more ASCII digits. -/
def digits? (token : Text) : Option Text :=
  let digits := token.dropFinalNewline
  if digits ≠ [] ∧ digits.all Char.isDigit then some digits else none

/-- The number that the digits stand for. It is not worked out for more than
`maxDecimalDigits` digits. -/
def decimalValue (digits : Text) : Except Failure Nat :=
  if digits.length ≤ maxDecimalDigits then .ok (Nat.ofDigitChars 10 digits 0)
  else .error (.tooManyDigits digits.length)

/-- A letter, underscore or point, which a name may begin with. -/
def isNameStart (c : Char) : Bool :=
  c.isAlpha || c = '_' || c = '.'

def isNameChar (c : Char) : Bool :=
  isNameStart c || c.isDigit

/-- An **identifier** begins like a name and has name characters only; a line feed may stand
at its end. -/
def isIdentifier (name : Text) : Bool :=
  match name.dropFinalNewline with
  | [] => false
  | c :: rest => isNameStart c && rest.all isNameChar

/-! ### One operand -/

/-- Reads a **register**: a letter with the number of the register behind it, which must fit a
byte. -/
def parseRegister (place : Place) (token : Text) : Except Failure Operand :=
  match token with
  | [] => .error (place.reject (.invalidRegister token))
  | c :: rest =>
    if c ∈ registerPrefixes then
      match digits? rest with
      | none => .error (place.reject (.invalidRegister token))
      | some digits => do
        let index ← decimalValue digits
        if index ≤ 0xFF then return .register (UInt8.ofNat index) token
        else throw (place.reject (.registerTooLarge token))
    else .error (place.reject (.invalidRegister token))

/-- A token without its sign, and whether the sign is a minus. There may be none. -/
def splitSign : Text → Bool × Text
  | '+' :: rest => (false, rest)
  | '-' :: rest => (true, rest)
  | token => (false, token)

/-- Reads an **immediate value**: a decimal numeral with or without a sign. Behind a minus sign only
zero is in range. -/
def parseImmediate (place : Place) (token : Text) : Except Failure Operand :=
  let (negative, numeral) := splitSign token
  match digits? numeral with
  | none => .error (place.reject (.notDecimal token))
  | some digits => do
    let value ← decimalValue digits
    if value ≤ 0xFF ∧ (negative → value = 0) then return .immediate (UInt8.ofNat value) token
    else throw (place.reject (.immediateOutOfRange token))

/-- Reads a **label name**, which must be of the right form and not too long, in this order. -/
def parseLabelName (place : Place) (name : Text) : Except Failure Text :=
  if isIdentifier name then
    if name.length ≤ maxLabelLength then .ok name
    else .error (place.reject (.labelTooLong name))
  else .error (place.reject (.invalidLabel name))

/-- Reads an operand of the given kind. A kind that has no reader is an internal error. -/
def parseOperand (place : Place) : OperandKind → Text → Except Failure Operand
  | .register, token => parseRegister place token
  | .immediate, token => parseImmediate place token
  | .label, token => (parseLabelName place token).map .label
  | .unknown name, _ => .error (place.reject (.unknownOperandKind name))

/-! ### All operands of an instruction -/

/-- Reads tokens of the given kinds one after the other, up to the first that is wrong. -/
def parseTokens (place : Place) : List OperandKind → List Text → Except Failure (List Operand)
  | kind :: kinds, token :: tokens => do
    let operand ← parseOperand place kind token
    let operands ← parseTokens place kinds tokens
    return operand :: operands
  | _, _ => .ok []

/-- Reads the **operands** of an instruction that is written with the given tokens. Their number is
checked first, and then each is read, from the left. -/
def parseOperands (definition : Definition) (place : Place) (tokens : List Text) :
    Except Failure (List Operand) :=
  if tokens.length = definition.arity then parseTokens place definition.operandKinds tokens
  else .error (place.reject (.operandCount definition.name definition.arity tokens.length))

end ByteMachine
