import ByteMachine.Source.Operand

/-!
# Source lines

A program text is read line by line. Text behind a semicolon is a comment. What stands
before it is nothing, the declaration of a label, which ends in a colon, or an instruction:
a word and its operands. Operands are separated by a comma with or without blanks around it,
or by blanks alone; one comma may follow the last operand.

`splitOperands` cuts at separators in one pass from left to right. It ends because what is
left behind a separator is shorter.
-/

namespace ByteMachine

/-- What a line **says**: nothing, a label, or an instruction with its operands. All that comes
later looks at nothing else of the line, its place apart. -/
inductive Statement
  | blank
  /-- The declaration of a label. -/
  | label (name : Text)
  /-- An instruction, its operands not yet read. -/
  | instruction (mnemonic : Text) (tokens : List Text)
  deriving DecidableEq, Repr

/-- A **line** of a program text: its number and text, what it says, and its comment. It is made by
`readLine` from its place. -/
structure Line where
  place : Place
  statement : Statement
  comment : Option Text
  deriving DecidableEq, Repr

namespace Statement

def label? : Statement → Option Text
  | label name => some name
  | _ => none

def mnemonic? : Statement → Option Text
  | instruction mnemonic _ => some mnemonic
  | _ => none

def tokens : Statement → List Text
  | instruction _ tokens => tokens
  | _ => []

end Statement

/-! ### Separators -/

/-- A character that ends an operand. -/
def isSeparator (c : Char) : Bool :=
  isBlank c || c = ','

/-- Drops the **separator** in front: blanks, at most one comma, and the blanks behind it. -/
def dropSeparator (text : Text) : Text :=
  match Text.trimStart text with
  | ',' :: rest => Text.trimStart rest
  | rest => rest

theorem length_dropWhile_le {α : Type} (p : α → Bool) (xs : List α) :
    (xs.dropWhile p).length ≤ xs.length :=
  (List.dropWhile_sublist p).length_le

theorem length_dropSeparator_lt {c : Char} {text : Text} (sep : isSeparator c = true) :
    (dropSeparator (c :: text)).length < (c :: text).length := by
  have shorter := length_dropWhile_le isBlank text
  by_cases blank : isBlank c = true
  · have start : Text.trimStart (c :: text) = Text.trimStart text := by
      simp [Text.trimStart, blank]
    unfold dropSeparator
    rw [start]
    split
    · rename_i rest eq
      have inner := length_dropWhile_le isBlank rest
      have outer : (',' :: rest).length ≤ text.length := eq ▸ shorter
      simp only [Text.trimStart, List.length_cons] at *
      omega
    · simp only [Text.trimStart, List.length_cons] at *
      omega
  · have comma : c = ',' := by simpa [isSeparator, blank] using sep
    subst comma
    have start : Text.trimStart (',' :: text) = ',' :: text := by
      simp [Text.trimStart, blank]
    have rest : dropSeparator (',' :: text) = Text.trimStart text := by
      simp only [dropSeparator, start]
    rw [rest]
    simp only [Text.trimStart, List.length_cons]
    omega

/-- Cuts a text at its **separators**: a comma with the blanks around it, or blanks alone. -/
def splitOperands (text : Text) : List Text :=
  let word := text.takeWhile fun c => !isSeparator c
  match _cut : text.dropWhile fun c => !isSeparator c with
  | [] => [word]
  | c :: rest => word :: splitOperands (dropSeparator (c :: rest))
termination_by text.length
decreasing_by
  have sep : isSeparator c = true := by
    have := List.head_dropWhile_not (fun c => !isSeparator c) (l := text) (by simp [_cut])
    simpa [_cut] using this
  have shorter := length_dropWhile_le (fun c => !isSeparator c) text
  have behind : (dropSeparator (c :: rest)).length < (c :: rest).length :=
    length_dropSeparator_lt sep
  rw [_cut] at shorter
  omega

/-! ### One line -/

/-- Cuts off the **comment**: the text before the first semicolon, and the text behind it if
there is one. -/
def cutComment (text : Text) : Text × Option Text :=
  let code := text.takeWhile (· ≠ ';')
  match text.dropWhile (· ≠ ';') with
  | [] => (code, none)
  | _ :: comment => (code, some (Text.trim comment))

/-- The **operands** in the text behind the first word of an instruction, where one comma at the end
is left out. -/
def operandTokens (text : Text) : List Text :=
  let rest := Text.trim text
  let rest := if rest.getLast? = some ',' then Text.trimEnd rest.dropLast else rest
  if rest = [] then [] else splitOperands rest

/-- What a line says, given its text without the comment and the blanks around it. A colon at the
end makes it a label, whatever else is there. -/
def readStatement (place : Place) (code : Text) : Except Failure Statement :=
  if code = [] then .ok .blank
  else if code.getLast? = some ':' then
    (parseLabelName place (Text.trim code.dropLast)).map .label
  else
    let mnemonic := code.takeWhile fun c => !isBlank c
    .ok (.instruction mnemonic (operandTokens (code.dropWhile fun c => !isBlank c)))

/-- Reads one **line**. It fails only on the name of a label; words and operands are looked at
later. -/
def readLine (place : Place) : Except Failure Line :=
  let (code, comment) := cutComment place.text
  (readStatement place (Text.trim code)).map fun statement => ⟨place, statement, comment⟩

/-! ### All lines -/

/-- Reads lines that are numbered from `first` on, up to the first that is wrong, which is the
failure. -/
def readLinesFrom (first : Int) : List Text → Except Failure (List Line)
  | [] => .ok []
  | text :: texts => do
    let line ← readLine ⟨first, text⟩
    let lines ← readLinesFrom (first + 1) texts
    return line :: lines

/-- Reads a **program text**, cut at its line feeds. Its lines are numbered from one on, and blank
ones count. -/
def readSource (source : Text) : Except Failure (List Line) :=
  readLinesFrom 1 (Text.lines source)

end ByteMachine
