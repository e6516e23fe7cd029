import ByteMachine.Text.Numeral
import ByteMachine.Text.Printable

/-!
# Quoted text

How a text is shown inside a message so that its ends and its unusual characters can be
seen. It stands between apostrophes, or between double quotes when it holds an apostrophe
and no double quote. The quote in use and the backslash are written behind a backslash, the
tabulator and the two line ends as `\t`, `\n` and `\r`, and every other character that is
not printable by its code point, in two, four or eight lower-case hexadecimal digits.
-/

namespace ByteMachine.Text

/-- The quote that encloses a text: an apostrophe, unless the text holds one and no double
quote. -/
def enclosingQuote (text : Text) : Char :=
  if text.contains '\'' && !text.contains '"' then '"' else '\''

/-- An **escape** by code point: a backslash, the letter that tells the number of digits,
and the digits. -/
def escapeCode (code : Nat) : Text :=
  let digits (width : Nat) : Text := padLeft width '0' (Nat.toDigits 16 code)
  if code < 0x100 then '\\' :: 'x' :: digits 2
  else if code < 0x10000 then '\\' :: 'u' :: digits 4
  else '\\' :: 'U' :: digits 8

/-- One character inside a text enclosed by `quote`. -/
def quoteChar (quote c : Char) : Text :=
  if c = quote || c = '\\' then ['\\', c]
  else if c = '\t' then ['\\', 't']
  else if c = '\n' then ['\\', 'n']
  else if c = '\r' then ['\\', 'r']
  else if isPrintable c then [c]
  else escapeCode c.toNat

/-- The **quoted form** of a text, as messages show what was given: in quotes, with what cannot be
printed escaped. -/
def quoted (text : Text) : Text :=
  let quote := enclosingQuote text
  quote :: text.flatMap (quoteChar quote) ++ [quote]

end ByteMachine.Text
