import ByteMachine.Source.Operand

/-!
# The grammar of operands

What the operands of an instruction look like, said without the functions that read them: a
register is a prefix letter and a numeral, an immediate value is a numeral that may carry a
sign, and a label name begins with a letter, an underscore or a point and goes on with these
or digits. A `Value` is what an operand stands for, `Spells` says which tokens stand for it,
and `TokenDefect` says what is wrong with a token that stands for nothing of its kind.

The readers are then described by cases on the grammar. A final line feed is not part of what
is read, so they look at the token without it.

## Main results

* `parseRegister_of_isRegister`, `parseImmediate_of_isImmediate`, `parseLabelName_of_isName`:
  what a token of the right shape is read as, and when its value is refused.
* `parseRegister_of_not_isRegister`, `parseImmediate_of_not_isImmediate`,
  `parseLabelName_of_not_isName`: any other token is refused as such.
* `spells_or_tokenDefect`: a token stands for a value of its kind or has a defect.
-/

namespace ByteMachine

/-! ### Shapes of tokens -/

/-- A **numeral** is one or more decimal digits. Zeros in front are allowed, and there is no bound
on the number of digits. -/
def IsNumeral (digits : Text) : Prop :=
  digits ≠ [] ∧ ∀ c ∈ digits, c.isDigit = true

/-- The token is a **register**: a prefix letter in either case, and the numeral of the index behind
it. -/
def IsRegister (token : Text) (index : Nat) : Prop :=
  ∃ c digits, c ∈ registerPrefixes ∧ IsNumeral digits ∧ token = c :: digits ∧
    index = Nat.ofDigitChars 10 digits 0

/-- The token is an **immediate value**: a numeral, with or without one sign in front. The value may
be any integer here, whether or not it fits in a byte. -/
def IsImmediate (token : Text) (value : Int) : Prop :=
  ∃ digits, IsNumeral digits ∧
    ((token = digits ∨ token = '+' :: digits) ∧ value = Nat.ofDigitChars 10 digits 0 ∨
      token = '-' :: digits ∧ value = -(Nat.ofDigitChars 10 digits 0 : Int))

/-- The text is a **name**: a letter, an underscore or a point, and behind it any number of
these and of digits. -/
def IsName (name : Text) : Prop :=
  ∃ c rest, name = c :: rest ∧ (c.isAlpha = true ∨ c = '_' ∨ c = '.') ∧
    ∀ d ∈ rest, d.isAlpha = true ∨ d = '_' ∨ d = '.' ∨ d.isDigit = true

/-- A **label name** is a name that is not too long. The length is that of the whole text. -/
def IsLabelName (name : Text) : Prop :=
  IsName name ∧ name.length ≤ maxLabelLength

/-! ### What tokens stand for -/

/-- The **value** that an operand stands for: the index of a register, an immediate value or the
name of a label. -/
inductive Value
  | register (index : UInt8)
  | immediate (value : UInt8)
  | label (name : Text)
  deriving DecidableEq, Repr

namespace Value

/-- The kind of operand that a value is given by: a register, an immediate or a label. -/
def kind : Value → OperandKind
  | register _ => .register
  | immediate _ => .immediate
  | label _ => .label

/-- The operand that is read from a token which stands for the value. It keeps the token beside the
value. -/
def operand (token : Text) : Value → Operand
  | register index => .register index token
  | immediate value => .immediate value token
  | label name => .label name

end Value

/-- The token **spells** a value: it is one of the texts that the grammar allows for that value. -/
inductive Spells (token : Text) : Value → Prop
  | register {index : UInt8} : IsRegister token index.toNat → Spells token (.register index)
  | immediate {value : UInt8} : IsImmediate token value.toNat → Spells token (.immediate value)
  | label : IsLabelName token → Spells token (.label token)

/-! ### What is wrong with tokens -/

/-- What is wrong with the **name** of a label: it is no name at all, or it is one that is too
long. -/
inductive NameDefect (name : Text) : SourceError.Cause → Prop
  | invalid : ¬ IsName name → NameDefect name (.invalidLabel name)
  | tooLong : IsName name → maxLabelLength < name.length → NameDefect name (.labelTooLong name)

/-- What is wrong with a **token** at the place of an operand of a kind: its shape, or a number that
does not fit in a byte. -/
inductive TokenDefect (token : Text) : OperandKind → SourceError.Cause → Prop
  | register : (∀ index, ¬ IsRegister token index) →
      TokenDefect token .register (.invalidRegister token)
  | registerTooLarge {index : Nat} : IsRegister token index → 0xFF < index →
      TokenDefect token .register (.registerTooLarge token)
  | immediate : (∀ value, ¬ IsImmediate token value) →
      TokenDefect token .immediate (.notDecimal token)
  | immediateOutOfRange {value : Int} : IsImmediate token value → ¬ (0 ≤ value ∧ value ≤ 0xFF) →
      TokenDefect token .immediate (.immediateOutOfRange token)
  | label {cause : SourceError.Cause} : NameDefect token cause → TokenDefect token .label cause

/-- A name is a label name, or something is wrong with it. The defects leave no case out. -/
theorem isLabelName_or_nameDefect (name : Text) :
    IsLabelName name ∨ ∃ cause, NameDefect name cause := by
  by_cases shape : IsName name
  · by_cases short : name.length ≤ maxLabelLength
    · exact .inl ⟨shape, short⟩
    · exact .inr ⟨_, .tooLong shape (by omega)⟩
  · exact .inr ⟨_, .invalid shape⟩

theorem IsLabelName.not_nameDefect {name : Text} (valid : IsLabelName name)
    {cause : SourceError.Cause} : ¬ NameDefect name cause
  | .invalid shape => shape valid.1
  | .tooLong _ long => absurd valid.2 (by omega)

/-- The message about a name shows no integer beside the number of the line. -/
theorem NameDefect.numbers_eq_nil {name : Text} {cause : SourceError.Cause}
    (defect : NameDefect name cause) : cause.numbers = [] := by
  cases defect <;> rfl

/-- The message about a token shows no integer beside the number of the line: the token itself is
quoted as it was written. -/
theorem TokenDefect.numbers_eq_nil {token : Text} {kind : OperandKind} {cause : SourceError.Cause}
    (defect : TokenDefect token kind cause) : cause.numbers = [] := by
  cases defect with
  | label defect => exact defect.numbers_eq_nil
  | _ => rfl

/-- A token at the place of an operand stands for a value of the kind, or has a defect. Only of a
kind that does not exist nothing is said. -/
theorem spells_or_tokenDefect {kind : OperandKind} (known : ∀ name, kind ≠ .unknown name)
    (token : Text) :
    (∃ value : Value, value.kind = kind ∧ Spells token value) ∨
      ∃ cause, TokenDefect token kind cause := by
  cases kind with
  | register =>
      by_cases shape : ∃ index, IsRegister token index
      · obtain ⟨index, shape⟩ := shape
        by_cases small : index ≤ 0xFF
        · have same : (UInt8.ofNat index).toNat = index := by
            rw [UInt8.toNat_ofNat']; omega
          exact .inl ⟨.register (UInt8.ofNat index), rfl, .register (same.symm ▸ shape)⟩
        · exact .inr ⟨_, .registerTooLarge shape (by omega)⟩
      · exact .inr ⟨_, .register (not_exists.mp shape)⟩
  | immediate =>
      by_cases shape : ∃ value, IsImmediate token value
      · obtain ⟨value, shape⟩ := shape
        by_cases small : 0 ≤ value ∧ value ≤ 0xFF
        · have same : ((UInt8.ofNat value.toNat).toNat : Int) = value := by
            rw [UInt8.toNat_ofNat']; omega
          exact .inl ⟨.immediate (UInt8.ofNat value.toNat), rfl, .immediate (same.symm ▸ shape)⟩
        · exact .inr ⟨_, .immediateOutOfRange shape small⟩
      · exact .inr ⟨_, .immediate (not_exists.mp shape)⟩
  | label =>
      rcases isLabelName_or_nameDefect token with valid | ⟨cause, defect⟩
      · exact .inl ⟨.label token, rfl, .label valid⟩
      · exact .inr ⟨cause, .label defect⟩
  | unknown name => exact absurd rfl (known name)

/-- A numeral does not begin with a character that is no digit, such as a sign. -/
theorem IsNumeral.ne_cons {digits rest : Text} {c : Char} (numeral : IsNumeral digits)
    (nodigit : c.isDigit = false) : digits ≠ c :: rest := by
  rintro rfl
  have digit := numeral.2 c (List.mem_cons_self ..)
  rw [nodigit] at digit
  cases digit

/-- A token is the register of one index at most, since its digits are the numeral of that index. -/
theorem IsRegister.unique {token : Text} {first second : Nat} (one : IsRegister token first)
    (other : IsRegister token second) : first = second := by
  obtain ⟨c, digits, -, -, rfl, rfl⟩ := one
  obtain ⟨d, others, -, -, same, rfl⟩ := other
  injection same with _ same
  rw [same]

/-- A token is one immediate value at most: whether there is a sign in front is told by the first
character. -/
theorem IsImmediate.unique {token : Text} {first second : Int} (one : IsImmediate token first)
    (other : IsImmediate token second) : first = second := by
  obtain ⟨digits, numeral, ⟨rfl | rfl, rfl⟩ | ⟨rfl, rfl⟩⟩ := one
  · obtain ⟨others, -, ⟨same | same, rfl⟩ | ⟨same, rfl⟩⟩ := other
    · rw [same]
    · exact absurd same (numeral.ne_cons (by decide))
    · exact absurd same (numeral.ne_cons (by decide))
  · obtain ⟨others, another, ⟨same | same, rfl⟩ | ⟨same, rfl⟩⟩ := other
    · exact absurd same.symm (another.ne_cons (by decide))
    · rw [List.tail_eq_of_cons_eq same]
    · exact absurd (List.head_eq_of_cons_eq same) (by decide)
  · obtain ⟨others, another, ⟨same | same, rfl⟩ | ⟨same, rfl⟩⟩ := other
    · exact absurd same.symm (another.ne_cons (by decide))
    · exact absurd (List.head_eq_of_cons_eq same) (by decide)
    · rw [List.tail_eq_of_cons_eq same]

/-- A token that spells a value has no defect as one of its kind. With `spells_or_tokenDefect` this
makes the two exact opposites. -/
theorem Spells.not_tokenDefect {token : Text} {value : Value} (spells : Spells token value)
    {cause : SourceError.Cause} : ¬ TokenDefect token value.kind cause := by
  intro defect
  cases spells with
  | @register index shape =>
      cases defect with
      | register none => exact none _ shape
      | registerTooLarge other large =>
          have small := index.toNat_lt
          rw [other.unique shape] at large
          omega
  | @immediate value shape =>
      cases defect with
      | immediate none => exact none _ shape
      | immediateOutOfRange other large =>
          have small := value.toNat_lt
          rw [other.unique shape] at large
          omega
  | label valid =>
      cases defect with
      | label defect => exact valid.not_nameDefect defect

/-! ### Without the final line feed -/

/-- The first character stays when a line feed at the end is dropped, unless it is that line
feed. -/
theorem dropFinalNewline_cons {c : Char} {rest : Text} (stays : c ≠ '\n' ∨ rest ≠ []) :
    Text.dropFinalNewline (c :: rest) = c :: Text.dropFinalNewline rest := by
  cases rest with
  | nil => simp [Text.dropFinalNewline, stays.resolve_right (fun ne => ne rfl)]
  | cons d tail =>
      simp only [Text.dropFinalNewline, List.getLast?_cons_cons, List.dropLast_cons_cons]
      split <;> rfl

/-- A character that is no line feed stands in front of a stem exactly if it stands in front of the
token and the stem of the rest follows it. -/
theorem dropFinalNewline_eq_cons_iff {c : Char} {token stem : Text} (plain : c ≠ '\n') :
    token.dropFinalNewline = c :: stem ↔
      ∃ rest : Text, token = c :: rest ∧ rest.dropFinalNewline = stem := by
  constructor
  · intro same
    rcases token with _ | ⟨d, rest⟩
    · cases same
    · by_cases stays : d ≠ '\n' ∨ rest ≠ []
      · rw [dropFinalNewline_cons stays] at same
        injection same with first behind
        exact ⟨rest, by rw [first], behind⟩
      · obtain ⟨rfl, rfl⟩ : d = '\n' ∧ rest = [] := by simpa using stays
        cases same
  · rintro ⟨rest, rfl, rfl⟩
    exact dropFinalNewline_cons (.inl plain)

/-- The line feed is no digit, so a token has as many digits as it has without it. -/
theorem countP_isDigit_dropFinalNewline (token : Text) :
    (Text.dropFinalNewline token).countP Char.isDigit = token.countP Char.isDigit := by
  rw [Text.dropFinalNewline]
  split
  · rename_i last
    obtain ⟨front, rfl⟩ := List.getLast?_eq_some_iff.mp last
    have newline : Char.isDigit '\n' = false := by decide
    simp [List.countP_append, newline]
  · rfl

/-- All characters of a numeral are digits, so the limit on digits is one on its length. -/
theorem IsNumeral.countP_isDigit {digits : Text} (numeral : IsNumeral digits) :
    digits.countP Char.isDigit = digits.length :=
  List.countP_eq_length.mpr numeral.2

/-- The digits of a token are the token without a line feed at its end, if that is a
numeral. -/
theorem digits?_eq_some_iff {token digits : Text} :
    digits? token = some digits ↔ IsNumeral digits ∧ token.dropFinalNewline = digits := by
  have meaning : (token.dropFinalNewline ≠ [] ∧ token.dropFinalNewline.all Char.isDigit = true) ↔
      IsNumeral token.dropFinalNewline := by
    rw [IsNumeral, List.all_eq_true]
  by_cases shape : IsNumeral token.dropFinalNewline
  · rw [digits?, if_pos (meaning.mpr shape), Option.some.injEq]
    exact ⟨fun same => ⟨same ▸ shape, same⟩, fun same => same.2⟩
  · rw [digits?, if_neg (mt meaning.mp shape)]
    exact ⟨fun found => (nomatch found), fun ⟨numeral, same⟩ => absurd (same ▸ numeral) shape⟩

theorem digits?_eq_none {token : Text} (shape : ¬ IsNumeral token.dropFinalNewline) :
    digits? token = none := by
  cases found : digits? token with
  | none => rfl
  | some digits =>
      obtain ⟨numeral, same⟩ := digits?_eq_some_iff.mp found
      exact absurd (same ▸ numeral) shape

/-! ### Readers -/

/-- A number of digits that may be worked out is worked out, and no larger one is. The limit counts
digits, so zeros in front count as well. -/
theorem decimalValue_eq (digits : Text) :
    decimalValue digits =
      if digits.length ≤ maxDecimalDigits then .ok (Nat.ofDigitChars 10 digits 0)
      else .error (.tooManyDigits digits.length) :=
  rfl

/-- The letter of a register is neither a digit nor a line feed, so it can be told from what follows
it. -/
theorem isDigit_of_mem_registerPrefixes {c : Char} (letter : c ∈ registerPrefixes) :
    c.isDigit = false ∧ c ≠ '\n' := by
  simp only [registerPrefixes, List.mem_cons, List.not_mem_nil, or_false] at letter
  rcases letter with rfl | rfl <;> decide

/-- A token of the shape of a **register** is read as one, if its index can be worked out and
fits in a byte. -/
theorem parseRegister_of_isRegister {place : Place} {token : Text} {index : Nat}
    (shape : IsRegister token.dropFinalNewline index) :
    parseRegister place token =
      if token.countP Char.isDigit ≤ maxDecimalDigits then
        if index ≤ 0xFF then .ok (.register (UInt8.ofNat index) token)
        else .error (place.reject (.registerTooLarge token))
      else .error (.tooManyDigits (token.countP Char.isDigit)) := by
  obtain ⟨c, digits, letter, numeral, same, rfl⟩ := shape
  obtain ⟨nodigit, plain⟩ := isDigit_of_mem_registerPrefixes letter
  have count : token.countP Char.isDigit = digits.length := by
    rw [← countP_isDigit_dropFinalNewline, same, List.countP_cons_of_neg (by simp [nodigit]),
      numeral.countP_isDigit]
  obtain ⟨rest, rfl, behind⟩ := (dropFinalNewline_eq_cons_iff plain).mp same
  have found : digits? rest = some digits := digits?_eq_some_iff.mpr ⟨numeral, behind⟩
  simp only [count, parseRegister, if_pos letter, found, decimalValue_eq]
  split <;> rfl

/-- A token that is no register is refused as such, before any digits are worked out. -/
theorem parseRegister_of_not_isRegister {place : Place} {token : Text}
    (shape : ∀ index, ¬ IsRegister token.dropFinalNewline index) :
    parseRegister place token = .error (place.reject (.invalidRegister token)) := by
  cases token with
  | nil => rfl
  | cons c rest =>
      rw [parseRegister]
      by_cases letter : c ∈ registerPrefixes
      · obtain ⟨-, plain⟩ := isDigit_of_mem_registerPrefixes letter
        have stem : Text.dropFinalNewline (c :: rest) = c :: Text.dropFinalNewline rest :=
          (dropFinalNewline_eq_cons_iff plain).mpr ⟨rest, rfl, rfl⟩
        have none : digits? rest = none := digits?_eq_none fun numeral =>
          shape _ ⟨c, _, letter, numeral, stem, rfl⟩
        simp only [if_pos letter, none]
      · simp only [if_neg letter]

/-- The value of digits behind a sign. A minus sign makes it negative, and in front of zero it makes
no difference. -/
def signedValue (negative : Bool) (digits : Text) : Int :=
  if negative then -(Nat.ofDigitChars 10 digits 0 : Int) else Nat.ofDigitChars 10 digits 0

/-- A value behind a minus sign fits in a byte only if it is zero. This is the way in which the
reader of immediate values puts its check of the range. -/
theorem signedValue_fits_iff {negative : Bool} {digits : Text} :
    0 ≤ signedValue negative digits ∧ signedValue negative digits ≤ 0xFF ↔
      (Nat.ofDigitChars 10 digits 0 ≤ 0xFF ∧
        (negative = true → Nat.ofDigitChars 10 digits 0 = 0)) ∧
        signedValue negative digits = Nat.ofDigitChars 10 digits 0 := by
  rw [signedValue]
  generalize Nat.ofDigitChars 10 digits 0 = n
  cases negative
  · simp only [Bool.false_eq_true, if_false, false_implies, and_true]
    omega
  · simp only [if_true, true_implies]
    omega

/-- A token is an immediate value exactly if there are digits behind its sign, and then the value is
the signed one of these digits. -/
theorem isImmediate_iff {token : Text} {value : Int} :
    IsImmediate token.dropFinalNewline value ↔
      ∃ digits, digits? (splitSign token).2 = some digits ∧
        value = signedValue (splitSign token).1 digits := by
  simp only [digits?_eq_some_iff]
  unfold splitSign
  split
  · rename_i rest
    have stem : Text.dropFinalNewline ('+' :: rest) = '+' :: Text.dropFinalNewline rest :=
      (dropFinalNewline_eq_cons_iff (by decide)).mpr ⟨rest, rfl, rfl⟩
    rw [stem]
    constructor
    · rintro ⟨digits, numeral, ⟨same | same, rfl⟩ | ⟨same, -⟩⟩
      · exact absurd same.symm (numeral.ne_cons (by decide))
      · injection same with _ same
        exact ⟨digits, ⟨numeral, same⟩, rfl⟩
      · injection same with sign
        exact absurd sign (by decide)
    · rintro ⟨digits, ⟨numeral, rfl⟩, rfl⟩
      exact ⟨_, numeral, .inl ⟨.inr rfl, rfl⟩⟩
  · rename_i rest
    have stem : Text.dropFinalNewline ('-' :: rest) = '-' :: Text.dropFinalNewline rest :=
      (dropFinalNewline_eq_cons_iff (by decide)).mpr ⟨rest, rfl, rfl⟩
    rw [stem]
    constructor
    · rintro ⟨digits, numeral, ⟨same | same, -⟩ | ⟨same, rfl⟩⟩
      · exact absurd same.symm (numeral.ne_cons (by decide))
      · injection same with sign
        exact absurd sign (by decide)
      · injection same with _ same
        exact ⟨digits, ⟨numeral, same⟩, rfl⟩
    · rintro ⟨digits, ⟨numeral, rfl⟩, rfl⟩
      exact ⟨_, numeral, .inr ⟨rfl, rfl⟩⟩
  · rename_i plus minus
    constructor
    · rintro ⟨digits, numeral, ⟨same | same, rfl⟩ | ⟨same, -⟩⟩
      · exact ⟨digits, ⟨numeral, same⟩, rfl⟩
      · obtain ⟨rest, same, -⟩ := (dropFinalNewline_eq_cons_iff (by decide)).mp same
        exact absurd same (plus rest)
      · obtain ⟨rest, same, -⟩ := (dropFinalNewline_eq_cons_iff (by decide)).mp same
        exact absurd same (minus rest)
    · rintro ⟨digits, ⟨numeral, same⟩, rfl⟩
      exact ⟨digits, numeral, .inl ⟨.inl same, rfl⟩⟩

/-- A sign is no digit, so a token has as many digits as what stands behind its sign. -/
theorem countP_isDigit_splitSign (token : Text) :
    (splitSign token).2.countP Char.isDigit = token.countP Char.isDigit := by
  unfold splitSign
  split
  · exact (List.countP_cons_of_neg (by decide)).symm
  · exact (List.countP_cons_of_neg (by decide)).symm
  · rfl

/-- A token of the shape of an **immediate value** is read as one, if the value can be worked
out and fits in a byte. -/
theorem parseImmediate_of_isImmediate {place : Place} {token : Text} {value : Int}
    (shape : IsImmediate token.dropFinalNewline value) :
    parseImmediate place token =
      if token.countP Char.isDigit ≤ maxDecimalDigits then
        if 0 ≤ value ∧ value ≤ 0xFF then .ok (.immediate (UInt8.ofNat value.toNat) token)
        else .error (place.reject (.immediateOutOfRange token))
      else .error (.tooManyDigits (token.countP Char.isDigit)) := by
  obtain ⟨digits, found, rfl⟩ := isImmediate_iff.mp shape
  obtain ⟨numeral, behind⟩ := digits?_eq_some_iff.mp found
  have count : token.countP Char.isDigit = digits.length := by
    rw [← countP_isDigit_splitSign, ← countP_isDigit_dropFinalNewline, behind,
      numeral.countP_isDigit]
  simp only [count, parseImmediate, found, decimalValue_eq]
  by_cases short : digits.length ≤ maxDecimalDigits
  · simp only [if_pos short]
    by_cases fits : 0 ≤ signedValue (splitSign token).1 digits ∧
        signedValue (splitSign token).1 digits ≤ 0xFF
    · obtain ⟨small, same⟩ := signedValue_fits_iff.mp fits
      rw [if_pos fits, same, Int.toNat_natCast]
      exact if_pos small
    · rw [if_neg fits]
      refine if_neg fun small => fits (signedValue_fits_iff.mpr ⟨small, ?_⟩)
      rw [signedValue]
      split
      · rename_i negative
        rw [small.2 negative]
        rfl
      · rfl
  · simp only [if_neg short]
    rfl

/-- A token that is no immediate value is refused as such, before any digits are worked out. -/
theorem parseImmediate_of_not_isImmediate {place : Place} {token : Text}
    (shape : ∀ value, ¬ IsImmediate token.dropFinalNewline value) :
    parseImmediate place token = .error (place.reject (.notDecimal token)) := by
  have none : digits? (splitSign token).2 = none := by
    cases found : digits? (splitSign token).2 with
    | none => rfl
    | some digits => exact absurd (isImmediate_iff.mpr ⟨digits, found, rfl⟩) (shape _)
  simp only [parseImmediate, none]

/-- The texts that are taken for names are the names, with or without one line feed at the end. -/
theorem isIdentifier_iff {name : Text} :
    isIdentifier name = true ↔ IsName name.dropFinalNewline := by
  rw [isIdentifier]
  split
  · rename_i empty
    rw [empty]
    exact ⟨fun no => (nomatch no), fun ⟨_, _, cons, _⟩ => (nomatch cons)⟩
  · rename_i c rest stem
    rw [stem]
    simp only [IsName, isNameChar, isNameStart, Bool.and_eq_true, Bool.or_eq_true,
      decide_eq_true_eq, List.all_eq_true, or_assoc]
    constructor
    · rintro ⟨start, all⟩
      exact ⟨c, rest, rfl, start, all⟩
    · rintro ⟨d, tail, same, start, all⟩
      injection same with first behind
      subst first behind
      exact ⟨start, all⟩

/-- A name is a label name if it is not too long. A line feed at the end counts as a character
here. -/
theorem parseLabelName_of_isName {place : Place} {name : Text}
    (shape : IsName name.dropFinalNewline) :
    parseLabelName place name =
      if name.length ≤ maxLabelLength then .ok name
      else .error (place.reject (.labelTooLong name)) := by
  rw [parseLabelName, if_pos (isIdentifier_iff.mpr shape)]

/-- A text that is no name is refused as such, whatever its length. -/
theorem parseLabelName_of_not_isName {place : Place} {name : Text}
    (shape : ¬ IsName name.dropFinalNewline) :
    parseLabelName place name = .error (place.reject (.invalidLabel name)) := by
  rw [parseLabelName, if_neg (mt isIdentifier_iff.mp shape)]

/-- A label name is read as it stands. A token of a line never ends in a line feed, so for such
tokens this is the only way to be read. -/
theorem parseLabelName_of_isLabelName {place : Place} {name : Text} (valid : IsLabelName name)
    (unbroken : name.dropFinalNewline = name) : parseLabelName place name = .ok name := by
  rw [parseLabelName_of_isName (unbroken.symm ▸ valid.1), if_pos valid.2]

/-- A text with a defect is no label name and is refused for that defect. -/
theorem parseLabelName_of_nameDefect {place : Place} {name : Text} {cause : SourceError.Cause}
    (defect : NameDefect name cause) (unbroken : name.dropFinalNewline = name) :
    parseLabelName place name = .error (place.reject cause) := by
  cases defect with
  | invalid shape => exact parseLabelName_of_not_isName (unbroken.symm ▸ shape)
  | tooLong shape long =>
      rw [parseLabelName_of_isName (unbroken.symm ▸ shape), if_neg (by omega)]

end ByteMachine
