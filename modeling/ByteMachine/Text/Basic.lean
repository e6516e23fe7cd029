/-!
# Text

Programs, tokens and printed rows are **texts**: lists of characters. A list makes every
function on text a recursion on its characters, so that what a program text means can be
proved by induction on it; a `String` is used only where a finished message is handed out.

The blanks are those of the Unicode white-space property together with the four
information separators `U+001C` to `U+001F`. `Text.trim` removes them from both ends.
A line of a text ends at a line feed only (`Text.lines`); a text read from a file has its
other line ends turned into line feeds first (`Text.unifyLineEnds`).
-/

namespace ByteMachine

/-- A **text** is the list of its characters, so that functions on texts recurse on its structure.
Strings stand only at the border. -/
abbrev Text := List Char

/-- Inclusive code-point ranges of the blanks, the characters that are trimmed. -/
def blankRanges : List (Nat × Nat) :=
  [(0x0009, 0x000D), (0x001C, 0x0020), (0x0085, 0x0085), (0x00A0, 0x00A0), (0x1680, 0x1680),
   (0x2000, 0x200A), (0x2028, 0x2029), (0x202F, 0x202F), (0x205F, 0x205F), (0x3000, 0x3000)]

/-- A character is a blank when its code point lies in one of the `blankRanges`. -/
def isBlank (c : Char) : Bool :=
  blankRanges.any fun range => range.1 ≤ c.toNat && c.toNat ≤ range.2

namespace Text

/-! ### Trimming -/

def trimStart (text : Text) : Text :=
  text.dropWhile isBlank

def trimEnd (text : Text) : Text :=
  (text.reverse.dropWhile isBlank).reverse

def trim (text : Text) : Text :=
  trimEnd (trimStart text)

/-- Removes one line feed at the very end, if there is one. A token that ends in one is read as if
it did not. -/
def dropFinalNewline (text : Text) : Text :=
  if text.getLast? = some '\n' then text.dropLast else text

/-! ### Lines -/

/-- The **lines** of a text are the pieces between its line feeds; a text without a line
feed is one line. -/
def lines (text : Text) : List Text :=
  text.splitOn '\n'

/-- Turns every carriage return, together with a line feed right behind it, into one line
feed. -/
def unifyLineEnds : Text → Text
  | [] => []
  | '\r' :: '\n' :: rest => '\n' :: unifyLineEnds rest
  | c :: rest => (if c = '\r' then '\n' else c) :: unifyLineEnds rest

/-- The texts one after the other with `separator` between them. -/
def joinWith (separator : Text) (texts : List Text) : Text :=
  separator.intercalate texts

/-- The texts as lines, without a line feed at the end. -/
def unlines (texts : List Text) : Text :=
  joinWith ['\n'] texts

/-! ### Columns -/

/-- Fills up with spaces on the right to `width` characters; a longer text stays whole. -/
def padRight (width : Nat) (text : Text) : Text :=
  text ++ List.replicate (width - text.length) ' '

/-- Fills up with `fill` on the left to `width` characters; a longer text stays whole. -/
def padLeft (width : Nat) (fill : Char) (text : Text) : Text :=
  List.replicate (width - text.length) fill ++ text

end Text

end ByteMachine
