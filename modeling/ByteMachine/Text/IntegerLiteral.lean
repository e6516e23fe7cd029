import ByteMachine.Text.DecimalDigit
import ByteMachine.Text.Numeral

/-!
# Integer literals

How an integer is written as the value of an option: an optional sign, then a decimal
numeral or a numeral behind one of the base marks `0x`, `0o` and `0b` in either case.
Single underscores may stand between two digits and right after a base mark. A decimal
numeral that begins with a zero must be zero, and it has at most `maxDecimalDigits` digits.

In a text that is not pure ASCII, blanks of every kind count as spaces and decimal digits of
every script count as digits. Then spaces and the five ASCII controls around them may
surround the literal.
-/

namespace ByteMachine.Text

/-- Replaces blanks by spaces and decimal digits by ASCII digits in a text that is not pure
ASCII; `none` if it holds another character outside ASCII. -/
def toAscii? (text : Text) : Option Text :=
  if text.all (·.toNat < 128) then some text
  else text.mapM fun c =>
    if c.toNat < 127 then some c
    else if isBlank c then some ' '
    else (decimalDigit? c).map Nat.digitChar

def isAsciiSpace (c : Char) : Bool :=
  c = ' ' || (0x09 ≤ c.toNat && c.toNat ≤ 0x0D)

/-- The value of a digit or letter as a **digit**, in bases up to sixteen. The case of a letter does
not matter. -/
def digitValue? (c : Char) : Option Nat :=
  if c.isDigit then some (c.toNat - '0'.toNat)
  else if 'a' ≤ c && c ≤ 'f' then some (c.toNat - 'a'.toNat + 10)
  else if 'A' ≤ c && c ≤ 'F' then some (c.toNat - 'A'.toNat + 10)
  else none

/-- The digits of a numeral in `base`, single underscores between two digits left out;
`none` if it is empty or holds anything else. -/
def digitValues? (base : Nat) : Text → Option (List Nat)
  | [] => none
  | [c] => (digitValue? c).bind fun d => if d < base then some [d] else none
  | c :: '_' :: rest => do
    let d ← digitValue? c
    guard (d < base)
    return d :: (← digitValues? base rest)
  | c :: rest => do
    let d ← digitValue? c
    guard (d < base)
    return d :: (← digitValues? base rest)

/-- The number that a list of digits stands for in `base`. -/
def ofDigitValues (base : Nat) (digits : List Nat) : Nat :=
  digits.foldl (fun n d => n * base + d) 0

def dropUnderscore : Text → Text
  | '_' :: rest => rest
  | text => text

/-- The value of a literal without sign and surrounding spaces. -/
def magnitude? (text : Text) : Option Nat :=
  match text with
  | '0' :: mark :: rest =>
    if mark = 'x' || mark = 'X' then
      (digitValues? 16 (dropUnderscore rest)).map (ofDigitValues 16)
    else if mark = 'o' || mark = 'O' then
      (digitValues? 8 (dropUnderscore rest)).map (ofDigitValues 8)
    else if mark = 'b' || mark = 'B' then
      (digitValues? 2 (dropUnderscore rest)).map (ofDigitValues 2)
    else do
      let digits ← digitValues? 10 text
      guard (digits.length ≤ maxDecimalDigits && ofDigitValues 10 digits = 0)
      return 0
  | _ => do
    let digits ← digitValues? 10 text
    guard (digits.length ≤ maxDecimalDigits)
    return ofDigitValues 10 digits

/-- The **integer** that a text writes, `none` if it is no integer literal. The base is that of the
literal's own mark. -/
def integer? (text : Text) : Option Int := do
  let ascii ← toAscii? text
  let literal := ((ascii.dropWhile isAsciiSpace).reverse.dropWhile isAsciiSpace).reverse
  match literal with
  | '-' :: rest => (magnitude? rest).map fun n => -(n : Int)
  | '+' :: rest => (magnitude? rest).map Int.ofNat
  | _ => (magnitude? literal).map Int.ofNat

end ByteMachine.Text
