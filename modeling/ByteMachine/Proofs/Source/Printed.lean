import Mathlib.Data.List.TakeWhile
import ByteMachine.Proofs.Source.Statement
import ByteMachine.Proofs.Source.Written

/-!
# Printed programs

Statements printed as lines of a program text, and read back. A word or a token that is `Plain`
holds no character that means something between tokens. Printed with separators between them, plain
tokens are cut apart at these, and a printed statement is read as that statement.

Every written instruction has a statement that can be printed: its registers and values have decimal
numerals, and the name of a label spells itself.

## Main results

* `splitOperands_joinWith`: tokens are cut apart at separators.
* `statementOf_printed`, `statements_printed`: what is printed is read back.
* `Written.writes_statement`, `Statement.Writes.unique`: the statement of a written instruction
  writes it, and no other.
-/

namespace ByteMachine

/-! ### Plain texts -/

/-- A character that stands for itself **anywhere** in a line: it neither separates, nor ends a name
or the code. -/
def IsPlainChar (c : Char) : Prop :=
  isSeparator c = false ∧ c ≠ ';' ∧ c ≠ ':'

/-- A **plain** text is a word: it is not empty, and its characters stand for themselves. -/
def IsPlain (text : Text) : Prop :=
  text ≠ [] ∧ ∀ c ∈ text, IsPlainChar c

instance (c : Char) : Decidable (IsPlainChar c) :=
  inferInstanceAs (Decidable (_ ∧ _))

/-- Whether a text is plain is worked out character by character, so that it can be decided. -/
theorem isPlain_iff_all {text : Text} :
    text ≠ [] ∧ (text.all fun c => decide (IsPlainChar c)) = true ↔ IsPlain text := by
  simp only [IsPlain, List.all_eq_true, decide_eq_true_iff]

instance (text : Text) : Decidable (IsPlain text) :=
  decidable_of_iff _ isPlain_iff_all

/-- A text that **begins and ends** with characters of some kind. What stands between them may be
anything. -/
def HasEnds (p : Char → Prop) (text : Text) : Prop :=
  (∃ c rest, text = c :: rest ∧ p c) ∧ ∃ front c, text = front ++ [c] ∧ p c

/-- A character that is not **blank**, so that trimming stops at it, whichever end the text is
trimmed at. -/
def IsSolid (c : Char) : Prop :=
  isBlank c = false

instance (c : Char) : Decidable (IsSolid c) :=
  inferInstanceAs (Decidable (_ = _))

variable {text first last token rest separator : Text} {c : Char} {p q : Char → Prop}

theorem IsPlainChar.isSolid (plain : IsPlainChar c) : IsSolid c :=
  (Bool.or_eq_false_iff.mp plain.1).1

/-- A text all of whose characters are of some kind begins and ends with such, if it has any. -/
theorem hasEnds_of_forall (nonempty : text ≠ []) (all : ∀ c ∈ text, p c) : HasEnds p text := by
  constructor
  · obtain ⟨c, rest, rfl⟩ := List.exists_cons_of_ne_nil nonempty
    exact ⟨c, rest, rfl, all c (List.mem_cons_self ..)⟩
  · exact ⟨text.dropLast, text.getLast nonempty, (List.dropLast_append_getLast nonempty).symm,
      all _ (List.getLast_mem nonempty)⟩

/-- A text has the first end of what it begins with and the last end of what it ends with; what
stands between does not matter. -/
theorem HasEnds.append (begins : HasEnds p first) (middle : Text) (ends : HasEnds p last) :
    HasEnds p (first ++ (middle ++ last)) := by
  obtain ⟨⟨c, rest, rfl, start⟩, -⟩ := begins
  obtain ⟨-, front, d, rfl, stop⟩ := ends
  refine ⟨⟨c, rest ++ (middle ++ (front ++ [d])), rfl, start⟩,
    c :: rest ++ (middle ++ front), d, ?_, stop⟩
  rw [List.append_assoc, List.append_assoc]

theorem HasEnds.mono (ends : HasEnds p text) (wider : ∀ c, p c → q c) : HasEnds q text := by
  obtain ⟨⟨c, rest, same, start⟩, front, d, same', stop⟩ := ends
  exact ⟨⟨c, rest, same, wider c start⟩, front, d, same', wider d stop⟩

theorem HasEnds.solid (ends : HasEnds IsPlainChar text) : HasEnds IsSolid text :=
  ends.mono fun _ => IsPlainChar.isSolid

theorem IsPlain.hasEnds (plain : IsPlain text) : HasEnds IsPlainChar text :=
  hasEnds_of_forall plain.1 plain.2

/-- A text whose ends are of a kind ends in no character of another kind, such as a colon or a
comma. -/
theorem HasEnds.getLast?_ne (ends : HasEnds p text) (other : ¬ p c) : text.getLast? ≠ some c := by
  obtain ⟨-, front, d, rfl, stop⟩ := ends
  rw [List.getLast?_concat]
  rintro ⟨⟩
  exact other stop

/-- Blanks in front are removed as far as the first character that is not blank. -/
theorem HasEnds.trimStart_append (ends : HasEnds IsSolid rest)
    (blanks : ∀ c ∈ first, isBlank c = true) : Text.trimStart (first ++ rest) = rest := by
  obtain ⟨⟨c, tail, rfl, solid⟩, -⟩ := ends
  have stays : ¬ isBlank c = true := Bool.not_eq_true _ ▸ solid
  rw [Text.trimStart, List.dropWhile_append_of_pos blanks, List.dropWhile_cons_of_neg stays]

/-- Behind a last character that is not blank there is nothing to trim. -/
theorem HasEnds.trimEnd_eq (ends : HasEnds IsSolid text) : Text.trimEnd text = text := by
  obtain ⟨-, front, c, rfl, solid⟩ := ends
  have stays : ¬ isBlank c = true := Bool.not_eq_true _ ▸ solid
  rw [Text.trimEnd, List.reverse_concat, List.dropWhile_cons_of_neg stays, List.reverse_cons,
    List.reverse_reverse]

/-- Of blanks in front of a text whose ends are not blank, only the blanks are trimmed. -/
theorem HasEnds.trim_append (ends : HasEnds IsSolid rest)
    (blanks : ∀ c ∈ first, isBlank c = true) : Text.trim (first ++ rest) = rest := by
  rw [Text.trim, ends.trimStart_append blanks, ends.trimEnd_eq]

theorem HasEnds.trim_eq (ends : HasEnds IsSolid text) : Text.trim text = text :=
  ends.trim_append (List.forall_mem_nil fun c => isBlank c = true)

/-! ### Tokens -/

/-- A text **separates** two tokens: it is blanks with a comma among them, or blanks alone. -/
def Separates (separator : Text) : Prop :=
  ∃ front back, (∀ c ∈ front, isBlank c = true) ∧ (∀ c ∈ back, isBlank c = true) ∧
    (separator = front ++ ',' :: back ∨ separator = front ∧ front ≠ [])

/-- A separator is dropped in front of a token, all of it and nothing more. -/
theorem Separates.dropSeparator_append (separates : Separates separator)
    (ends : HasEnds IsPlainChar rest) : dropSeparator (separator ++ rest) = rest := by
  obtain ⟨front, back, blank_front, blank_back, rfl | ⟨rfl, -⟩⟩ := separates
  · have comma : Text.trimStart (front ++ ',' :: back ++ rest) = ',' :: (back ++ rest) := by
      rw [Text.trimStart, List.append_assoc, List.dropWhile_append_of_pos blank_front]
      exact List.dropWhile_cons_of_neg (by decide)
    rw [dropSeparator_of_comma comma]
    exact ends.solid.trimStart_append blank_back
  · have start := ends.solid.trimStart_append blank_front
    rw [dropSeparator_of_head?_ne, start]
    obtain ⟨⟨c, tail, rfl, plain⟩, -⟩ := ends
    rw [start]
    rintro ⟨⟩
    exact absurd plain (by decide)

/-- A separator begins with a character that ends the token in front of it. -/
theorem Separates.exists_cons (separates : Separates separator) :
    ∃ c tail, separator = c :: tail ∧ isSeparator c = true := by
  obtain ⟨front, back, blank_front, -, shape⟩ := separates
  rcases front with _ | ⟨c, tail⟩
  · rcases shape with rfl | ⟨-, empty⟩
    · exact ⟨',', back, rfl, by decide⟩
    · exact absurd rfl empty
  · have blank : isSeparator c = true := by
      rw [isSeparator, blank_front c (List.mem_cons_self ..)]
      rfl
    rcases shape with rfl | ⟨rfl, -⟩
    · exact ⟨c, tail ++ ',' :: back, rfl, blank⟩
    · exact ⟨c, tail, rfl, blank⟩

theorem splitOperands_of_isPlain (plain : IsPlain token) : splitOperands token = [token] := by
  refine splitOperands_of_whole (List.dropWhile_eq_nil_iff.mpr fun c inside => ?_)
  rw [(plain.2 c inside).1]
  rfl

/-- A plain token is cut off at the separator behind it, and the rest is cut on. -/
theorem splitOperands_append (plain : IsPlain token) (separates : Separates separator)
    (ends : HasEnds IsPlainChar rest) :
    splitOperands (token ++ (separator ++ rest)) = token :: splitOperands rest := by
  have whole : ∀ c ∈ token, (!isSeparator c) = true := fun c inside => by
    rw [(plain.2 c inside).1]
    rfl
  have behind := separates.dropSeparator_append ends
  obtain ⟨c, tail, rfl, stops⟩ := separates.exists_cons
  have stop : ¬ (!isSeparator c) = true := by
    rw [stops]
    exact Bool.false_ne_true
  have word : (token ++ (c :: tail ++ rest)).takeWhile (fun c => !isSeparator c) = token := by
    rw [List.takeWhile_append_of_pos whole, List.cons_append,
      List.takeWhile_cons_of_neg (p := fun c => !isSeparator c) stop, List.append_nil]
  have left : (token ++ (c :: tail ++ rest)).dropWhile (fun c => !isSeparator c) =
      c :: (tail ++ rest) := by
    rw [List.dropWhile_append_of_pos whole, List.cons_append,
      List.dropWhile_cons_of_neg (p := fun c => !isSeparator c) stop]
  rw [splitOperands_of_cut left, word, ← List.cons_append, behind]

/-- Texts with a separator between them are the first text, the separator, and the others with
separators between them. -/
theorem Text.joinWith_cons_cons (separator first second : Text) (texts : List Text) :
    joinWith separator (first :: second :: texts) =
      first ++ (separator ++ joinWith separator (second :: texts)) := by
  rw [joinWith, List.intercalate_cons_cons, List.append_assoc]
  rfl

variable {tokens : List Text}

/-- Plain tokens with a separator between them begin and end with plain characters, whatever the
separator. -/
theorem hasEnds_joinWith (separator : Text) (plain : ∀ token ∈ tokens, IsPlain token)
    (nonempty : tokens ≠ []) : HasEnds IsPlainChar (Text.joinWith separator tokens) := by
  induction tokens with
  | nil => exact absurd rfl nonempty
  | cons token tokens ih =>
      rw [List.forall_mem_cons] at plain
      cases tokens with
      | nil =>
          rw [Text.joinWith, List.intercalate_singleton]
          exact plain.1.hasEnds
      | cons second tokens =>
          rw [Text.joinWith_cons_cons]
          exact plain.1.hasEnds.append separator (ih plain.2 nofun)

/-- Plain tokens are cut apart at the separators between them, by induction on the tokens. -/
theorem splitOperands_joinWith (separates : Separates separator)
    (plain : ∀ token ∈ tokens, IsPlain token) (nonempty : tokens ≠ []) :
    splitOperands (Text.joinWith separator tokens) = tokens := by
  induction tokens with
  | nil => exact absurd rfl nonempty
  | cons token tokens ih =>
      rw [List.forall_mem_cons] at plain
      cases tokens with
      | nil =>
          rw [Text.joinWith, List.intercalate_singleton]
          exact splitOperands_of_isPlain plain.1
      | cons second tokens =>
          rw [Text.joinWith_cons_cons, splitOperands_append plain.1 separates
            (hasEnds_joinWith separator plain.2 nofun), ih plain.2 nofun]

/-- A character that is in texts with a separator between them is in the separator or in one of
the texts. -/
theorem mem_joinWith (inside : c ∈ Text.joinWith separator tokens) :
    c ∈ separator ∨ ∃ token ∈ tokens, c ∈ token := by
  induction tokens with
  | nil => cases inside
  | cons token tokens ih =>
      cases tokens with
      | nil =>
          rw [Text.joinWith, List.intercalate_singleton] at inside
          exact .inr ⟨token, List.mem_cons_self .., inside⟩
      | cons second tokens =>
          rw [Text.joinWith_cons_cons, List.mem_append, List.mem_append] at inside
          rcases inside with here | between | later
          · exact .inr ⟨token, List.mem_cons_self .., here⟩
          · exact .inl between
          · rcases ih later with between | ⟨other, among, within⟩
            · exact .inl between
            · exact .inr ⟨other, List.mem_cons_of_mem _ among, within⟩

/-- The operands behind blanks are the tokens that stand there with separators between them. -/
theorem operandTokens_append (blanks : ∀ c ∈ first, isBlank c = true)
    (separates : Separates separator) (plain : ∀ token ∈ tokens, IsPlain token)
    (nonempty : tokens ≠ []) :
    operandTokens (first ++ Text.joinWith separator tokens) = tokens := by
  have ends := hasEnds_joinWith separator plain nonempty
  have comma := ends.getLast?_ne (show ¬ IsPlainChar ',' by decide)
  have nonempty' : Text.joinWith separator tokens ≠ [] := by
    obtain ⟨⟨c, rest, same, -⟩, -⟩ := ends
    rw [same]
    exact List.cons_ne_nil c rest
  simp only [operandTokens, ends.solid.trim_append blanks, if_neg comma, if_neg nonempty']
  exact splitOperands_joinWith separates plain nonempty

/-- A comma with a space behind it separates tokens. Printed lines use no other separator. -/
theorem separates_comma : Separates [',', ' '] :=
  ⟨[], [' '], fun _ => nofun, List.forall_mem_singleton.mpr (by decide), .inl rfl⟩

/-! ### Statements -/

namespace Statement

/-- A statement as a **line**. A declaration ends in a colon, and the operands of an instruction
have commas between them. -/
def printed : Statement → Text
  | blank => []
  | label name => name ++ [':']
  | instruction word [] => word
  | instruction word (token :: tokens) =>
    word ++ ' ' :: Text.joinWith [',', ' '] (token :: tokens)

/-- A statement that can be **printed**: its words are plain, so that nothing in them is taken for
something else. -/
def Printable : Statement → Prop
  | blank => True
  | label name => IsPlain name
  | instruction word tokens => IsPlain word ∧ ∀ token ∈ tokens, IsPlain token

/-- A printed statement is made of plain characters, colons, commas and spaces. So there is neither
a comment nor a line feed in it. -/
theorem Printable.of_mem_printed {statement : Statement} (printable : statement.Printable)
    (inside : c ∈ statement.printed) : IsPlainChar c ∨ c ∈ [':', ',', ' '] := by
  cases statement with
  | blank => cases inside
  | label name =>
      rcases List.mem_append.mp inside with name | colon
      · exact .inl (printable.2 c name)
      · obtain rfl := List.mem_singleton.mp colon
        exact .inr (by decide)
  | instruction word tokens =>
      obtain ⟨plain_word, plain⟩ := printable
      cases tokens with
      | nil => exact .inl (plain_word.2 c inside)
      | cons token tokens =>
          rw [printed, List.mem_append, List.mem_cons] at inside
          rcases inside with name | rfl | operand
          · exact .inl (plain_word.2 c name)
          · exact .inr (by decide)
          · rcases mem_joinWith operand with between | ⟨other, among, within⟩
            · exact .inr (List.mem_cons_of_mem _ between)
            · exact .inl ((plain other among).2 c within)

end Statement

/-- A text without semicolons whose ends are not blank is code as a whole. -/
theorem codeOf_eq (ends : HasEnds IsSolid text) (open_ : ∀ c ∈ text, c ≠ ';') :
    codeOf text = text := by
  have whole : text.takeWhile (fun c => decide (c ≠ ';')) = text :=
    List.takeWhile_eq_self_iff.mpr fun c inside => decide_eq_true (open_ c inside)
  rw [codeOf, whole, ends.trim_eq]

/-- A **printed statement** is read as that statement. Printing and reading are written apart, and
this is where they meet. -/
theorem statementOf_printed {statement : Statement} (printable : statement.Printable) :
    statementOf statement.printed = statement := by
  have open_ : ∀ c ∈ statement.printed, c ≠ ';' := by
    rintro c inside rfl
    rcases printable.of_mem_printed inside with plain | other
    · exact absurd plain (by decide)
    · exact absurd other (by decide)
  cases statement with
  | blank => rfl
  | label name =>
      have colon : HasEnds IsSolid [':'] :=
        hasEnds_of_forall (List.cons_ne_nil _ _) (List.forall_mem_singleton.mpr (by decide))
      have code := codeOf_eq (printable.hasEnds.solid.append [] colon) open_
      rw [List.nil_append] at code
      rw [Statement.printed, statementOf, code, if_neg (List.concat_ne_nil _ _),
        if_pos (List.getLast?_concat ..), List.dropLast_concat, printable.hasEnds.solid.trim_eq]
  | instruction word tokens =>
      obtain ⟨plain_word, plain⟩ := printable
      have whole : ∀ c ∈ word, (!isBlank c) = true := fun c inside => by
        rw [(plain_word.2 c inside).isSolid]
        rfl
      cases tokens with
      | nil =>
          have code := codeOf_eq plain_word.hasEnds.solid open_
          have colon := plain_word.hasEnds.getLast?_ne (show ¬ IsPlainChar ':' by decide)
          rw [Statement.printed, statementOf, code, if_neg plain_word.1, if_neg colon,
            List.takeWhile_eq_self_iff.mpr whole, List.dropWhile_eq_nil_iff.mpr whole]
          rfl
      | cons token tokens =>
          have ends := plain_word.hasEnds.append [' ']
            (hasEnds_joinWith [',', ' '] plain (List.cons_ne_nil token tokens))
          have code := codeOf_eq ends.solid open_
          have colon := ends.getLast?_ne (show ¬ IsPlainChar ':' by decide)
          have space : ∀ c ∈ [' '], isBlank c = true := List.forall_mem_singleton.mpr (by decide)
          have nonempty : word ++ ([' '] ++ Text.joinWith [',', ' '] (token :: tokens)) ≠ [] :=
            List.append_ne_nil_of_left_ne_nil plain_word.1 _
          rw [Statement.printed, ← List.singleton_append, statementOf, code, if_neg nonempty,
            if_neg colon, List.takeWhile_append_of_pos whole, List.dropWhile_append_of_pos whole,
            List.singleton_append,
            List.takeWhile_cons_of_neg (p := fun c => !isBlank c) (by decide),
            List.dropWhile_cons_of_neg (p := fun c => !isBlank c) (by decide), List.append_nil,
            ← List.singleton_append, operandTokens_append space separates_comma plain
              (List.cons_ne_nil _ _)]

/-- Statements as a **program text**, one a line. A colon is behind a label that is declared, and
there are commas between operands. -/
def printedSource (source : List Statement) : Text :=
  Text.unlines (source.map Statement.printed)

/-- A printed program says what was printed. There must be a statement, since the empty text has
one blank line. -/
theorem statements_printedSource {source : List Statement} (nonempty : source ≠ [])
    (printable : ∀ statement ∈ source, statement.Printable) :
    statements (printedSource source) = source := by
  have unbroken : ∀ text ∈ source.map Statement.printed, '\n' ∉ text := by
    intro text inside newline
    obtain ⟨statement, among, rfl⟩ := List.mem_map.mp inside
    rcases (printable statement among).of_mem_printed newline with plain | other
    · exact absurd plain (by decide)
    · exact absurd other (by decide)
  have read : ∀ statement ∈ source, (statementOf ∘ Statement.printed) statement = statement :=
    fun statement among => statementOf_printed (printable statement among)
  have nonempty' : source.map Statement.printed ≠ [] := mt List.map_eq_nil_iff.mp nonempty
  rw [statements, Text.lines, printedSource, Text.unlines, Text.joinWith,
    List.splitOn_intercalate _ unbroken nonempty', List.map_map, List.map_congr_left read,
    List.map_id']

/-! ### Written instructions -/

theorem isNumeral_decimal (n : Nat) : IsNumeral (Text.decimal n) :=
  ⟨Nat.toDigits_ne_nil, fun _ inside =>
    Nat.isDigit_of_mem_toDigits (by decide) (by decide) inside⟩

theorem ofDigitChars_decimal (n : Nat) : Nat.ofDigitChars 10 (Text.decimal n) 0 = n :=
  Nat.ofDigitChars_ten_toDigits

/-- The decimal numeral of a byte has three digits at most, so it is far from the limit. -/
theorem length_decimal_le (byte : UInt8) : (Text.decimal byte.toNat).length ≤ 3 := by
  have small : byte.toNat < 10 ^ 3 := Nat.lt_of_lt_of_le byte.toNat_lt (by decide)
  exact (Nat.length_toDigits_le_iff (by decide) (by decide)).mpr small

/-- A character between the comma and the end of ASCII is plain, unless it is a semicolon or a
colon. -/
theorem isPlainChar_of_toNat (low : 44 < c.toNat) (high : c.toNat < 127) (semicolon : c ≠ ';')
    (colon : c ≠ ':') : IsPlainChar c := by
  refine ⟨?_, semicolon, colon⟩
  have solid : isBlank c = false := by
    simp [isBlank, blankRanges]
    omega
  have comma : c ≠ ',' := by
    rintro rfl
    exact absurd low (by decide)
  rw [isSeparator, solid, decide_eq_false comma]
  rfl

theorem isPlainChar_of_isDigit (digit : c.isDigit = true) : IsPlainChar c := by
  obtain ⟨low, high⟩ := Char.isDigit_iff_toNat.mp digit
  refine isPlainChar_of_toNat (Nat.lt_of_lt_of_le (by decide) low)
    (Nat.lt_of_le_of_lt high (by decide)) ?_ ?_
  · rintro rfl
    exact absurd digit (by decide)
  · rintro rfl
    exact absurd digit (by decide)

theorem isPlainChar_of_isAlpha (letter : c.isAlpha = true) : IsPlainChar c := by
  have range : 65 ≤ c.toNat ∧ c.toNat ≤ 122 := by
    rcases Bool.or_eq_true_iff.mp letter with upper | lower
    · obtain ⟨low, high⟩ : c.val ≥ 'A'.val ∧ c.val ≤ 'Z'.val := of_decide_eq_true upper
      rw [ge_iff_le, UInt32.le_iff_toNat_le] at low
      rw [UInt32.le_iff_toNat_le] at high
      exact ⟨low, Nat.le_trans high (by decide)⟩
    · obtain ⟨low, high⟩ := Bool.and_eq_true_iff.mp lower
      rw [decide_eq_true_iff, ge_iff_le, UInt32.le_iff_toNat_le] at low
      rw [decide_eq_true_iff, UInt32.le_iff_toNat_le] at high
      exact ⟨Nat.le_trans (by decide) low, high⟩
  refine isPlainChar_of_toNat (by omega) (by omega) ?_ ?_
  · rintro rfl
    exact absurd letter (by decide)
  · rintro rfl
    exact absurd letter (by decide)

/-- A name is a plain text: it is made of letters, digits, underscores and dots. -/
theorem IsName.isPlain (name : IsName text) : IsPlain text := by
  obtain ⟨first, rest, rfl, start, all⟩ := name
  refine ⟨List.cons_ne_nil _ _, List.forall_mem_cons.mpr ⟨?_, ?_⟩⟩
  · rcases start with letter | rfl | rfl
    · exact isPlainChar_of_isAlpha letter
    · decide
    · decide
  · intro c inside
    rcases all c inside with letter | rfl | rfl | digit
    · exact isPlainChar_of_isAlpha letter
    · decide
    · decide
    · exact isPlainChar_of_isDigit digit

theorem IsNumeral.isPlain (numeral : IsNumeral text) : IsPlain text :=
  ⟨numeral.1, fun c inside => isPlainChar_of_isDigit (numeral.2 c inside)⟩

namespace Value

/-- A value as it can be **printed**. Registers get the upper-case letter, and numbers get no
sign. -/
def printed : Value → Text
  | register index => 'R' :: Text.decimal index.toNat
  | immediate value => Text.decimal value.toNat
  | label name => name

/-- A value that can be printed: if it is a label, then one with a label name. -/
def Printable (value : Value) : Prop :=
  ∀ name, value = label name → IsLabelName name

theorem spells_printed {value : Value} (printable : value.Printable) :
    Spells value.printed value := by
  cases value with
  | register index =>
      exact .register ⟨'R', _, by decide, isNumeral_decimal _, rfl, (ofDigitChars_decimal _).symm⟩
  | immediate value =>
      refine .immediate ⟨_, isNumeral_decimal value.toNat, .inl ⟨.inl rfl, ?_⟩⟩
      rw [ofDigitChars_decimal]
  | label name => exact .label (printable name rfl)

theorem isPlain_printed {value : Value} (printable : value.Printable) : IsPlain value.printed := by
  cases value with
  | register index =>
      exact ⟨List.cons_ne_nil _ _,
        List.forall_mem_cons.mpr ⟨by decide, (isNumeral_decimal index.toNat).isPlain.2⟩⟩
  | immediate value => exact (isNumeral_decimal value.toNat).isPlain
  | label name => exact (printable name rfl).1.isPlain

/-- A printed value is no longer than a label name may be, which is far from any limit of digits. -/
theorem length_printed_le {value : Value} (printable : value.Printable) :
    value.printed.length ≤ maxLabelLength := by
  cases value with
  | register index =>
      have := length_decimal_le index
      rw [printed, List.length_cons, maxLabelLength]
      omega
  | immediate value => exact Nat.le_trans (length_decimal_le value) (by decide)
  | label name => exact (printable name rfl).2

end Value

namespace Written

variable {written : Written}

/-- The **statement** that a written instruction is printed as: its word and its values. -/
def statement (written : Written) : Statement :=
  .instruction written.mnemonic.name (written.values.map Value.printed)

/-- A label among the values is the one that the instruction goes to, since there is one at most. -/
theorem label?_eq_of_mem_values {name : Text} (inside : .label name ∈ written.values) :
    written.label? = some name := by
  cases written <;> simp_all [values, label?]

/-- The values of an instruction that goes to a label name can all be printed. -/
theorem printable_of_mem_values (named : ∀ name, written.label? = some name → IsLabelName name)
    {value : Value} (inside : value ∈ written.values) : value.Printable := by
  rintro name rfl
  exact named name (label?_eq_of_mem_values inside)

variable (named : ∀ name, written.label? = some name → IsLabelName name)

include named

/-- The statement of an instruction that goes to a label name writes that instruction. -/
theorem writes_statement : written.statement.Writes written := by
  refine ⟨_, rfl, ?_⟩
  rw [List.forall₂_map_left_iff, List.forall₂_same]
  exact fun value inside => Value.spells_printed (printable_of_mem_values named inside)

/-- The statement of an instruction that goes to a label name can be printed. -/
theorem printable_statement : written.statement.Printable := by
  refine ⟨?_, ?_⟩
  · cases written.mnemonic <;> decide
  · intro token inside
    obtain ⟨value, among, rfl⟩ := List.mem_map.mp inside
    exact Value.isPlain_printed (printable_of_mem_values named among)

/-- The tokens in the statement of an instruction that goes to a label name are short, so all of
them can be worked out. -/
theorem length_le_of_mem_tokens {token : Text} (inside : token ∈ written.statement.tokens) :
    token.length ≤ maxLabelLength := by
  obtain ⟨value, among, rfl⟩ := List.mem_map.mp inside
  exact Value.length_printed_le (printable_of_mem_values named among)

end Written

/-! ### One instruction -/

/-- A token spells only one value of a kind. Of another kind it may well spell another value. -/
theorem Spells.unique {value other : Value} (spells : Spells token value)
    (again : Spells token other) (same : value.kind = other.kind) : value = other := by
  cases spells with
  | register shape =>
      cases again with
      | register shape' => exact congrArg _ (UInt8.toNat_inj.mp (shape.unique shape'))
      | _ => cases same
  | immediate shape =>
      cases again with
      | immediate shape' =>
          exact congrArg _ (UInt8.toNat_inj.mp (Int.ofNat_inj.mp (shape.unique shape')))
      | _ => cases same
  | label _ =>
      cases again with
      | label _ => rfl
      | _ => cases same

theorem values_unique {values others : List Value} (spells : List.Forall₂ Spells tokens values)
    (again : List.Forall₂ Spells tokens others)
    (same : values.map Value.kind = others.map Value.kind) : values = others := by
  induction spells generalizing others with
  | nil =>
      cases again
      rfl
  | cons head _ ih =>
      cases again with
      | cons head' tail' =>
          rw [List.map_cons, List.map_cons, List.cons.injEq] at same
          rw [head.unique head' same.1, ih tail' same.2]

/-- An instruction of the table with given values is one written instruction. -/
theorem Written.eq_of_values {written other : Written} (row : written.mnemonic = other.mnemonic)
    (same : written.values = other.values) : written = other := by
  cases written <;> cases other <;> cases row <;> cases same <;> rfl

/-- A statement writes only **one** instruction. So it makes sense to speak of the instruction that
a line writes. -/
theorem Statement.Writes.unique {statement : Statement} {written other : Written}
    (writes : statement.Writes written) (again : statement.Writes other) : written = other := by
  obtain ⟨tokens, rfl, spells⟩ := writes
  obtain ⟨others, same, spells'⟩ := again
  obtain ⟨names, rfl⟩ := Statement.instruction.inj same
  have row := Mnemonic.name_inj.mp names
  refine Written.eq_of_values row (values_unique spells spells' ?_)
  rw [Written.map_kind_values, Written.map_kind_values, row]

end ByteMachine
