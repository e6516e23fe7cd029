import Mathlib.Data.List.Forall2
import ByteMachine.Proofs.Source.Grammar
import ByteMachine.Proofs.Source.Rejecting
import ByteMachine.Proofs.Source.Token

/-!
# Operands are read by their grammar

What a token stands for at the place of an operand, down to its last character. A token of a line
never ends in a line feed, but the readers can be given any text, and a line feed at the end of it
is let pass. It is not part of a numeral or a name, and still it counts as a character of a label,
so the name that is read keeps it and may be too long because of it.

`Denotes` says what a token stands for, with no reader in sight, and each reader `ReadsExactly`
that. Numerals have any number of leading zeros, but no more digits than are worked out at all.

The operands of an instruction are then read from left to right, so what comes of it is what the
reader of the leftmost wrong one says.

## Main results

* `exact_parseRegister`, `exact_parseImmediate`, `exact_parseLabelName`: the three readers.
* `exact_parseOperand`: the reader for a kind, kinds that do not exist included.
* `parseTokens_eq_ok_iff`, `parseTokens_eq_error_iff`: all operands of an instruction.
* `operands_read_exactly`: all of it.
-/

namespace ByteMachine

/-- A token has a stem: it is the stem, or the stem with one line feed behind it. -/
def Text.HasStem (token stem : Text) : Prop :=
  token = stem ∨ token = stem ++ ['\n']

/-- What a token **denotes** at the place of an operand of a kind, by its stem and for a label by
its length. The operand keeps the whole token. -/
inductive Denotes (token : Text) : OperandKind → Operand → Prop
  | register {stem : Text} {index : UInt8} : token.HasStem stem → IsRegister stem index.toNat →
      Denotes token .register (.register index token)
  | immediate {stem : Text} {value : UInt8} : token.HasStem stem → IsImmediate stem value.toNat →
      Denotes token .immediate (.immediate value token)
  | label {stem : Text} : token.HasStem stem → IsName stem → token.length ≤ maxLabelLength →
      Denotes token .label (.label token)

/-- The kind of error with which a token is refused at the place of an operand. -/
def OperandKind.refusal : OperandKind → SourceError.Kind
  | register => .invalidRegister
  | immediate => .invalidImmediate
  | label => .invalidLabel
  | unknown _ => .internal

/-- What comes of a reader is **exact**: it gives what is meant, and if nothing is meant, it fails
for a cause of one kind. On every line whose number can be written, this is an error that shows the
line. -/
structure ReadsExactly {α : Type} (place : Place) (outcome : Except Failure α) (means : α → Prop)
    (kind : SourceError.Kind) : Prop where
  accepts : ∀ value, outcome = .ok value ↔ means value
  refuses : (∀ value, ¬ means value) →
    ∃ cause, outcome = .error (place.reject cause) ∧ cause.kind = kind ∧
      (Text.isShort place.lineNum = true → place.reject cause = .rejected ⟨cause, place⟩)

/-- A failure is that of the **leftmost** token whose reader fails, of some tokens at the places of
operands of some kinds. -/
def LeftmostFails (place : Place) (entries : List (OperandKind × Text)) (failure : Failure) :
    Prop :=
  ∃ (i : Nat) (entry : OperandKind × Text), entries[i]? = some entry ∧
    parseOperand place entry.1 entry.2 = .error failure ∧
    ∀ earlier ∈ entries.take i,
      ∃ operand, parseOperand place earlier.1 earlier.2 = .ok operand

/-! ### Stems -/

/-- A text without a line feed is the stem of a token exactly if it is what is left of the token
without a line feed at its end. -/
theorem Text.hasStem_iff {token stem : Text} (plain : '\n' ∉ stem) :
    token.HasStem stem ↔ token.dropFinalNewline = stem := by
  constructor
  · rintro (rfl | rfl)
    · exact dropFinalNewline_of_getLast? fun last => plain (List.mem_of_getLast? last)
    · rw [dropFinalNewline, if_pos List.getLast?_concat, List.dropLast_concat]
  · rintro rfl
    rw [dropFinalNewline]
    split
    · rename_i last
      obtain ⟨front, rfl⟩ := List.getLast?_eq_some_iff.mp last
      rw [List.dropLast_concat]
      exact .inr rfl
    · exact .inl rfl

theorem IsNumeral.newline_notMem {digits : Text} (numeral : IsNumeral digits) : '\n' ∉ digits :=
  fun inside => absurd (numeral.2 _ inside) (by decide)

/-- There is no line feed in a register, so the stem of a register is found by dropping one. -/
theorem IsRegister.newline_notMem {stem : Text} {index : Nat} (shape : IsRegister stem index) :
    '\n' ∉ stem := by
  obtain ⟨c, digits, letter, numeral, rfl, -⟩ := shape
  rw [List.mem_cons, not_or]
  exact ⟨(isDigit_of_mem_registerPrefixes letter).2.symm, numeral.newline_notMem⟩

/-- There is no line feed in an immediate value, so its stem is found by dropping one. -/
theorem IsImmediate.newline_notMem {stem : Text} {value : Int} (shape : IsImmediate stem value) :
    '\n' ∉ stem := by
  have signed {sign : Char} {digits : Text} (other : '\n' ≠ sign) (numeral : IsNumeral digits) :
      '\n' ∉ sign :: digits := by
    rw [List.mem_cons, not_or]
    exact ⟨other, numeral.newline_notMem⟩
  obtain ⟨digits, numeral, ⟨rfl | rfl, -⟩ | ⟨rfl, -⟩⟩ := shape
  · exact numeral.newline_notMem
  · exact signed (by decide) numeral
  · exact signed (by decide) numeral

/-- There is no line feed in a name, so its stem is found by dropping one. -/
theorem IsName.newline_notMem {stem : Text} (shape : IsName stem) : '\n' ∉ stem := by
  obtain ⟨c, rest, rfl, start, all⟩ := shape
  rw [List.mem_cons, not_or]
  refine ⟨?_, fun inside => ?_⟩
  · rintro rfl
    revert start
    decide
  · have char := all _ inside
    revert char
    decide

/-! ### What is denoted -/

section Denoted

variable {token : Text} {operand : Operand}

/-- What a token denotes as a register: the index of its stem, which must be that of a byte. -/
theorem denotes_register_iff : Denotes token .register operand ↔
    ∃ index : UInt8, IsRegister token.dropFinalNewline index.toNat ∧
      operand = .register index token := by
  constructor
  · intro denotes
    cases denotes with
    | register ends shape =>
        exact ⟨_, (Text.hasStem_iff shape.newline_notMem).mp ends ▸ shape, rfl⟩
  · rintro ⟨index, shape, rfl⟩
    exact .register ((Text.hasStem_iff shape.newline_notMem).mpr rfl) shape

/-- What a token denotes as an immediate value: the value of its stem, which must be that of a
byte. -/
theorem denotes_immediate_iff : Denotes token .immediate operand ↔
    ∃ value : UInt8, IsImmediate token.dropFinalNewline value.toNat ∧
      operand = .immediate value token := by
  constructor
  · intro denotes
    cases denotes with
    | immediate ends shape =>
        exact ⟨_, (Text.hasStem_iff shape.newline_notMem).mp ends ▸ shape, rfl⟩
  · rintro ⟨value, shape, rfl⟩
    exact .immediate ((Text.hasStem_iff shape.newline_notMem).mpr rfl) shape

/-- What a token denotes as a label: itself, if its stem is a name and the whole token is not too
long. -/
theorem denotes_label_iff : Denotes token .label operand ↔
    (IsName token.dropFinalNewline ∧ token.length ≤ maxLabelLength) ∧ operand = .label token := by
  constructor
  · intro denotes
    cases denotes with
    | label ends shape short =>
        exact ⟨⟨(Text.hasStem_iff shape.newline_notMem).mp ends ▸ shape, short⟩, rfl⟩
  · rintro ⟨⟨shape, short⟩, rfl⟩
    exact .label ((Text.hasStem_iff shape.newline_notMem).mpr rfl) shape short

end Denoted

/-! ### Reading one operand -/

section Exact

variable {α : Type} {place : Place} {outcome : Except Failure α} {means : α → Prop}
  {kind : SourceError.Kind} {token : Text}

theorem ReadsExactly.of_ok {value : α} (read : outcome = .ok value)
    (only : ∀ other, means other ↔ other = value) : ReadsExactly place outcome means kind where
  accepts other := by
    rw [read, only, Except.ok.injEq]
    exact eq_comm
  refuses none := absurd ((only value).mpr rfl) (none value)

theorem ReadsExactly.of_error {cause : SourceError.Cause}
    (failed : outcome = .error (place.reject cause)) (same : cause.kind = kind)
    (plain : cause.numbers = []) (nothing : ∀ value, ¬ means value) :
    ReadsExactly place outcome means kind where
  accepts value := by
    rw [failed]
    exact iff_of_false nofun (nothing value)
  refuses _ := ⟨cause, failed, same, Place.reject_of_plain plain⟩

/-- Giving the byte that a number is, and failing if it is none, is exact where the byte of that
number is what is meant. -/
theorem ReadsExactly.of_number {number : Int} {operand : UInt8 → α} {cause : SourceError.Cause}
    (fits : 0 ≤ number ∧ number ≤ 0xFF → outcome = .ok (operand (UInt8.ofNat number.toNat)))
    (exceeds : ¬ (0 ≤ number ∧ number ≤ 0xFF) → outcome = .error (place.reject cause))
    (same : cause.kind = kind) (plain : cause.numbers = [])
    (only : ∀ value, means value ↔ ∃ byte : UInt8, byte.toNat = number ∧ value = operand byte) :
    ReadsExactly place outcome means kind := by
  by_cases small : 0 ≤ number ∧ number ≤ 0xFF
  · refine .of_ok (fits small) fun value => (only value).trans ⟨?_, ?_⟩
    · rintro ⟨byte, rfl, rfl⟩
      rw [Int.toNat_natCast, UInt8.ofNat_toNat]
    · rintro rfl
      refine ⟨_, ?_, rfl⟩
      rw [UInt8.toNat_ofNat']
      omega
  · refine .of_error (exceeds small) same plain fun value meant => ?_
    obtain ⟨byte, here, -⟩ := (only value).mp meant
    have bound := byte.toNat_lt
    omega

/-- **A register** is read exactly, if its index can be worked out. Zeros in front count as digits
for that. -/
theorem exact_parseRegister (place : Place) (short : token.countP Char.isDigit ≤ maxDecimalDigits) :
    ReadsExactly place (parseRegister place token) (Denotes token .register) .invalidRegister := by
  by_cases shape : ∃ index, IsRegister token.dropFinalNewline index
  · obtain ⟨index, shape⟩ := shape
    have read : parseRegister place token = _ := parseRegister_of_isRegister shape
    rw [if_pos short] at read
    have index_iff (byte : UInt8) :
        IsRegister token.dropFinalNewline byte.toNat ↔ (byte.toNat : Int) = index :=
      ⟨fun other => congrArg Int.ofNat (other.unique shape), fun same => Int.ofNat.inj same ▸ shape⟩
    have fits (small : 0 ≤ (index : Int) ∧ (index : Int) ≤ 0xFF) :
        parseRegister place token = .ok (.register (UInt8.ofNat index) token) := by
      rw [read, if_pos (by omega)]
    have exceeds (large : ¬ (0 ≤ (index : Int) ∧ (index : Int) ≤ 0xFF)) :
        parseRegister place token = .error (place.reject (.registerTooLarge token)) := by
      rw [read, if_neg (by omega)]
    exact .of_number fits exceeds rfl rfl fun operand =>
      denotes_register_iff.trans (exists_congr fun byte => and_congr_left' (index_iff byte))
  · refine .of_error (parseRegister_of_not_isRegister (not_exists.mp shape)) rfl rfl ?_
    intro operand denotes
    obtain ⟨index, other, -⟩ := denotes_register_iff.mp denotes
    exact shape ⟨_, other⟩

/-- **An immediate value** is read exactly, if it can be worked out. Zeros in front count as digits
for that. -/
theorem exact_parseImmediate (place : Place)
    (short : token.countP Char.isDigit ≤ maxDecimalDigits) :
    ReadsExactly place (parseImmediate place token) (Denotes token .immediate)
      .invalidImmediate := by
  by_cases shape : ∃ value, IsImmediate token.dropFinalNewline value
  · obtain ⟨value, shape⟩ := shape
    have read : parseImmediate place token = _ := parseImmediate_of_isImmediate shape
    rw [if_pos short] at read
    have value_iff (byte : UInt8) :
        IsImmediate token.dropFinalNewline byte.toNat ↔ (byte.toNat : Int) = value :=
      ⟨fun other => other.unique shape, fun same => same ▸ shape⟩
    have fits (small : 0 ≤ value ∧ value ≤ 0xFF) := read.trans (if_pos small)
    have exceeds (large : ¬ (0 ≤ value ∧ value ≤ 0xFF)) := read.trans (if_neg large)
    exact .of_number fits exceeds rfl rfl fun operand =>
      denotes_immediate_iff.trans (exists_congr fun byte => and_congr_left' (value_iff byte))
  · refine .of_error (parseImmediate_of_not_isImmediate (not_exists.mp shape)) rfl rfl ?_
    intro operand denotes
    obtain ⟨value, other, -⟩ := denotes_immediate_iff.mp denotes
    exact shape ⟨_, other⟩

/-- **A label name** is read exactly, whatever the text: there is nothing to be worked out, and so
it is given back or refused. -/
theorem exact_parseLabelName (place : Place) (name : Text) :
    ReadsExactly place (parseLabelName place name) (fun read => Denotes name .label (.label read))
      .invalidLabel := by
  have denotes (read : Text) : Denotes name .label (.label read) ↔
      (IsName name.dropFinalNewline ∧ name.length ≤ maxLabelLength) ∧ read = name := by
    rw [denotes_label_iff, Operand.label.injEq]
  by_cases shape : IsName name.dropFinalNewline
  · have read : parseLabelName place name = _ := parseLabelName_of_isName shape
    by_cases short : name.length ≤ maxLabelLength
    · rw [if_pos short] at read
      exact .of_ok read fun other => (denotes other).trans (and_iff_right ⟨shape, short⟩)
    · rw [if_neg short] at read
      exact .of_error read rfl rfl fun other means => short ((denotes other).mp means).1.2
  · exact .of_error (parseLabelName_of_not_isName shape) rfl rfl
      fun other means => shape ((denotes other).mp means).1.1

/-- **An operand** of a kind is read exactly, if a number in it can be worked out. Of a kind that
does not exist there is none. -/
theorem exact_parseOperand (place : Place) {kind : OperandKind}
    (short : kind = .register ∨ kind = .immediate →
      token.countP Char.isDigit ≤ maxDecimalDigits) :
    ReadsExactly place (parseOperand place kind token) (Denotes token kind) kind.refusal := by
  cases kind with
  | register => exact exact_parseRegister place (short (.inl rfl))
  | immediate => exact exact_parseImmediate place (short (.inr rfl))
  | label =>
      have exact := exact_parseLabelName place token
      rw [parseOperand]
      cases read : parseLabelName place token with
      | ok name =>
          have means := (exact.accepts name).mp read
          refine .of_ok rfl fun other => ?_
          rw [denotes_label_iff] at means ⊢
          exact means.2 ▸ and_iff_right means.1
      | error failure =>
          have nothing (operand : Operand) : ¬ Denotes token .label operand := by
            intro denotes
            cases denotes with
            | label ends shape fits =>
                have accepted := (exact.accepts token).mpr (.label ends shape fits)
                rw [read] at accepted
                cases accepted
          obtain ⟨cause, failed, same, shows⟩ := exact.refuses fun name => nothing _
          rw [read] at failed
          cases failed
          exact ⟨fun operand => iff_of_false nofun (nothing operand),
            fun _ => ⟨cause, rfl, same, shows⟩⟩
  | unknown name => exact .of_error rfl rfl rfl fun operand denotes => by cases denotes

end Exact

/-! ### Reading all operands -/

section All

variable {place : Place} {kind : OperandKind} {kinds : List OperandKind} {token : Text}
  {tokens : List Text} {failure : Failure}

/-- A token and those behind it are read exactly if it is and they are, and the operands are put
together. -/
theorem parseTokens_cons_eq_ok_iff {operands : List Operand} :
    parseTokens place (kind :: kinds) (token :: tokens) = .ok operands ↔
      ∃ operand others, parseOperand place kind token = .ok operand ∧
        parseTokens place kinds tokens = .ok others ∧ operands = operand :: others := by
  rw [parseTokens]
  cases parseOperand place kind token with
  | error first => simp [bind, Except.bind]
  | ok operand =>
      cases parseTokens place kinds tokens with
      | error last => simp [bind, Except.bind]
      | ok others => simp [bind, Except.bind, pure, Except.pure, eq_comm]

/-- A token and those behind it fail exactly if it does, or if it is read and they do. -/
theorem parseTokens_cons_eq_error_iff :
    parseTokens place (kind :: kinds) (token :: tokens) = .error failure ↔
      parseOperand place kind token = .error failure ∨
        (∃ operand, parseOperand place kind token = .ok operand) ∧
          parseTokens place kinds tokens = .error failure := by
  rw [parseTokens]
  cases parseOperand place kind token with
  | error first => simp [bind, Except.bind]
  | ok operand =>
      cases parseTokens place kinds tokens with
      | error last => simp [bind, Except.bind]
      | ok others => simp [bind, Except.bind, pure, Except.pure]

/-- Where there are no places or no tokens, nothing is read, and nothing can fail. -/
theorem parseTokens_of_zip_eq_nil (empty : kinds.zip tokens = []) :
    parseTokens place kinds tokens = .ok [] := by
  cases kinds with
  | nil => cases tokens <;> rfl
  | cons kind kinds =>
      cases tokens with
      | nil => rfl
      | cons token tokens => cases empty

/-- The leftmost failure is that of the head, or of the tail behind a head that is read. -/
theorem leftmostFails_cons_iff {entry : OperandKind × Text} {entries : List (OperandKind × Text)} :
    LeftmostFails place (entry :: entries) failure ↔
      parseOperand place entry.1 entry.2 = .error failure ∨
        (∃ operand, parseOperand place entry.1 entry.2 = .ok operand) ∧
          LeftmostFails place entries failure := by
  constructor
  · rintro ⟨i, other, found, failed, earlier⟩
    cases i with
    | zero =>
        cases found
        exact .inl failed
    | succ i =>
        rw [List.take_succ_cons, List.forall_mem_cons] at earlier
        exact .inr ⟨earlier.1, i, other, found, failed, earlier.2⟩
  · rintro (failed | ⟨read, i, other, found, failed, earlier⟩)
    · exact ⟨0, entry, rfl, failed, List.forall_mem_nil _⟩
    · exact ⟨i + 1, other, found, failed, List.forall_mem_cons.mpr ⟨read, earlier⟩⟩

theorem not_leftmostFails_nil : ¬ LeftmostFails place [] failure :=
  fun ⟨_, _, found, _⟩ => nomatch found

/-- Tokens are read exactly if **each** of them is, and what they are read as are the operands. -/
theorem parseTokens_eq_ok_iff {operands : List Operand} :
    parseTokens place kinds tokens = .ok operands ↔
      List.Forall₂ (fun entry operand => parseOperand place entry.1 entry.2 = .ok operand)
        (kinds.zip tokens) operands := by
  induction kinds generalizing tokens operands with
  | nil =>
      rw [parseTokens_of_zip_eq_nil List.zip_nil_left, List.zip_nil_left,
        List.forall₂_nil_left_iff, Except.ok.injEq]
      exact eq_comm
  | cons kind kinds ih =>
      cases tokens with
      | nil =>
          rw [parseTokens_of_zip_eq_nil List.zip_nil_right, List.zip_nil_right,
            List.forall₂_nil_left_iff, Except.ok.injEq]
          exact eq_comm
      | cons token tokens =>
          rw [parseTokens_cons_eq_ok_iff, List.zip_cons_cons, List.forall₂_cons_left_iff]
          simp only [ih]

/-- Tokens **fail** exactly as the leftmost one does that is not read. Those behind it are not
looked at. -/
theorem parseTokens_eq_error_iff :
    parseTokens place kinds tokens = .error failure ↔
      LeftmostFails place (kinds.zip tokens) failure := by
  induction kinds generalizing tokens with
  | nil =>
      rw [parseTokens_of_zip_eq_nil List.zip_nil_left, List.zip_nil_left]
      exact iff_of_false nofun not_leftmostFails_nil
  | cons kind kinds ih =>
      cases tokens with
      | nil =>
          rw [parseTokens_of_zip_eq_nil List.zip_nil_right, List.zip_nil_right]
          exact iff_of_false nofun not_leftmostFails_nil
      | cons token tokens =>
          rw [parseTokens_cons_eq_error_iff, List.zip_cons_cons, leftmostFails_cons_iff, ih]

end All

/-- **Operands are read by their grammar.** A token with no more digits than can be worked out is
read as a register or an immediate value exactly if it denotes one, and otherwise it is refused with
an error of that kind; so is any token as a label, and any kind of operand that does not exist. The
operands of an instruction are refused if their number is wrong. If it is right, they fail exactly
as the leftmost one does that its reader refuses, and otherwise there is one operand for each token,
and it is what the reader makes of it. The line can be any; only a line whose number has too many
digits to be written is not shown by these errors. -/
theorem operands_read_exactly (place : Place) :
    (∀ token : Text, token.countP Char.isDigit ≤ maxDecimalDigits →
      ReadsExactly place (parseRegister place token) (Denotes token .register)
          .invalidRegister ∧
        ReadsExactly place (parseImmediate place token) (Denotes token .immediate)
          .invalidImmediate) ∧
    (∀ name : Text, ReadsExactly place (parseLabelName place name)
      (fun read => Denotes name .label (.label read)) .invalidLabel) ∧
    (∀ (kind : OperandKind) (token : Text),
      (kind = .register ∨ kind = .immediate → token.countP Char.isDigit ≤ maxDecimalDigits) →
      ReadsExactly place (parseOperand place kind token) (Denotes token kind) kind.refusal) ∧
    ∀ (definition : Definition) (tokens : List Text),
      (tokens.length ≠ definition.arity →
        let cause := .operandCount definition.name definition.arity tokens.length
        parseOperands definition place tokens = .error (place.reject cause) ∧
          (Text.isShort place.lineNum = true →
            place.reject cause = .rejected ⟨cause, place⟩)) ∧
      (tokens.length = definition.arity →
        (∀ failure, parseOperands definition place tokens = .error failure ↔
          LeftmostFails place (definition.operandKinds.zip tokens) failure) ∧
        ∀ operands, parseOperands definition place tokens = .ok operands ↔
          List.Forall₂ (fun entry operand => parseOperand place entry.1 entry.2 = .ok operand)
            (definition.operandKinds.zip tokens) operands) := by
  refine ⟨fun token short => ⟨exact_parseRegister place short, exact_parseImmediate place short⟩,
    exact_parseLabelName place, fun kind token => exact_parseOperand place,
    fun definition tokens =>
      ⟨fun wrong => ⟨if_neg wrong, Place.reject_of_plain rfl⟩, fun same => ?_⟩⟩
  have all : parseOperands definition place tokens =
      parseTokens place definition.operandKinds tokens := if_pos same
  rw [all]
  exact ⟨fun _ => parseTokens_eq_error_iff, fun _ => parseTokens_eq_ok_iff⟩

/-- A register in lower case with zeros in front and a line feed behind it is read, and so is a
zero below zero. Of three operands the second is the one that is wrong first. -/
theorem exists_operands_read_exactly :
    let place : Place := ⟨3, []⟩
    let definition : Definition := ⟨['M'], [.register, .immediate, .unknown "POINTER"]⟩
    parseRegister place "r007\n".toList = .ok (.register 7 "r007\n".toList) ∧
      parseImmediate place "-00".toList = .ok (.immediate 0 "-00".toList) ∧
      parseOperands definition place ["R1".toList, "256".toList, "p".toList] =
        .error (place.reject (.immediateOutOfRange "256".toList)) ∧
      parseOperands definition place [] = .error (place.reject (.operandCount ['M'] 3 0)) := by
  intro place definition
  obtain ⟨numbers, -, -, operands⟩ := operands_read_exactly place
  obtain ⟨-, all⟩ := operands definition ["R1".toList, "256".toList, "p".toList]
  have register : Denotes "r007\n".toList .register (.register 7 "r007\n".toList) :=
    .register (.inr rfl)
      ⟨'r', "007".toList, by decide, ⟨by decide, List.all_eq_true.mp rfl⟩, rfl, rfl⟩
  have immediate : Denotes "-00".toList .immediate (.immediate 0 "-00".toList) :=
    .immediate (.inl rfl) ⟨"00".toList, ⟨by decide, List.all_eq_true.mp rfl⟩, .inr ⟨rfl, rfl⟩⟩
  refine ⟨((numbers _ (by decide)).1.accepts _).mpr register,
    ((numbers _ (by decide)).2.accepts _).mpr immediate, ?_,
    ((operands definition []).1 (by decide)).1⟩
  refine ((all rfl).1 _).mpr ⟨1, (.immediate, "256".toList), rfl, rfl, ?_⟩
  exact List.forall_mem_singleton.mpr ⟨_, rfl⟩

end ByteMachine
