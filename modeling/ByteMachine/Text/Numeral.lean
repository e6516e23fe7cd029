import ByteMachine.Text.Basic

/-!
# Numerals

How numbers are written: decimal numerals with a sign in front of a negative number, and
upper-case hexadecimal numerals of at least two characters, the sign counted. An address is
a hexadecimal numeral behind a dollar sign, and a row of bytes is written as pairs of digits
with spaces between them.

The digits are those of `Nat.toDigits`, whose laws give the round trip through
`Nat.ofDigitChars`.

A decimal numeral has at most `maxDecimalDigits` digits, whether it is read or written. Numbers that
count things which are there, such as bytes or the lines of a text that is assembled, never come
near that many digits, and their numerals are written without a look at the limit. Every other
integer is written by `numeral`, which may fail. Hexadecimal numerals have no limit.
-/

namespace ByteMachine

/-- The largest number of digits of a **decimal numeral** that is converted, to a number or from
one. A sign does not count. -/
def maxDecimalDigits : Nat := 4300

/-- An integer has more than `maxDecimalDigits` digits, so that no numeral of it is written. -/
structure NumeralTooLong where
  deriving DecidableEq, Repr

/-- The message about an integer that is not written. -/
def NumeralTooLong.message (_ : NumeralTooLong) : String :=
  s!"Exceeds the limit ({maxDecimalDigits} digits) for integer string conversion; " ++
    "use sys.set_int_max_str_digits() to increase the limit"

namespace Text

/-- The decimal numeral of a natural number, without leading zeros. -/
def decimal (n : Nat) : Text :=
  Nat.toDigits 10 n

/-- The decimal numeral of an integer, with a minus sign in front of a negative one. It is written
without a look at the limit. -/
def signedDecimal : Int → Text
  | .ofNat n => decimal n
  | .negSucc n => '-' :: decimal (n + 1)

/-- Whether the decimal numeral of an integer keeps within the limit. Its sign does not count. -/
def isShort (n : Int) : Bool :=
  (decimal n.natAbs).length ≤ maxDecimalDigits

/-- The **numeral** of an integer, unless it is too long. Whatever may be any integer and is shown
in a message is written by this function. -/
def numeral (n : Int) : Except NumeralTooLong Text :=
  if isShort n then .ok (signedDecimal n) else .error {}

def hexDigits (n : Nat) : Text :=
  (Nat.toDigits 16 n).map Char.toUpper

/-- The hexadecimal numeral of an integer, filled up with zeros to two characters, of which
a minus sign is one. -/
def hex : Int → Text
  | .ofNat n => padLeft 2 '0' (hexDigits n)
  | .negSucc n => '-' :: hexDigits (n + 1)

/-- An address is a hexadecimal numeral behind a dollar sign. -/
def address (n : Int) : Text :=
  '$' :: hex n

def hexByte (byte : UInt8) : Text :=
  hex byte.toNat

/-- A row of bytes: pairs of hexadecimal digits with a space between them. -/
def hexRow (bytes : List UInt8) : Text :=
  joinWith [' '] (bytes.map hexByte)

end Text

end ByteMachine
