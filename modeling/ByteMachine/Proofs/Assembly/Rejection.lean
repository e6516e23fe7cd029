import ByteMachine.Proofs.Assembly.Acceptance
import ByteMachine.Proofs.Source.Printed

/-!
# Which line an error names

A program text that is not assembled is rejected on one of its lines: the error shows the number of
that line, counted from one, and its text. There are two failures that name no line, and both come
from integers of too many digits. A numeral of the text may be too long to be worked out. It is
worked out before it is compared with the bound of its operand, and so an operand can be too large
without being reported as such. And the limit of labels may be too long to be shown, where there are
too many.

## Main results

* `assemble_outcome`: a program text is assembled, or rejected on a line, or has a token that cannot
  be worked out, or there is an integer that cannot be shown.
* `assemble_of_long`: the third case does occur, with a value that no byte holds.
-/

namespace ByteMachine

/-- A failure that **names a line** of a program text: its number, counted from one, and its
text. -/
def Failure.NamesLine (source : Text) (failure : Failure) : Prop :=
  ∃ (i : Nat) (text : Text) (cause : SourceError.Cause), (Text.lines source)[i]? = some text ∧
    failure = .rejected ⟨cause, ⟨i + 1, text⟩⟩

/-- Some integer that a message about the program text could have to show is **too long**: the limit
of labels, or the bound on all numbers of lines and all addresses of labels. -/
def HasLongInteger (source : Text) (maxLabels : Int) : Prop :=
  ¬ Text.isShort maxLabels = true ∨ 10 ^ maxDecimalDigits ≤ 4 * (Text.lines source).length

variable {profile : Profile} {maxLabels : Int} {source : Text}

/-- A message about a defect that cannot be written shows one of the integers that are too
long. -/
theorem DefectAt.hasLongInteger {i : Nat} {cause : SourceError.Cause} {text : Text}
    (bad : DefectAt profile maxLabels (statements source) i cause)
    (silent : (⟨cause, ⟨i + 1, text⟩⟩ : SourceError).writable = false) :
    HasLongInteger source maxLabels := by
  by_contra short
  rw [HasLongInteger, not_or, not_not, Nat.not_le] at short
  rw [bad.writable short.1 (by simpa [statements] using short.2)] at silent
  cases silent

/-- **How an assembly ends**, for every profile, every program text and every limit of labels: it
succeeds; or it fails and names a line of the text; or it gives up on a numeral, and then some token
of the text has too many digits; or it fails on a message that it cannot write, and then some
integer that the message could have to show has too many. -/
theorem assemble_outcome (profile : Profile) (source : Text) (maxLabels maxProgramSize : Int) :
    (∃ context, (assemble profile source maxLabels maxProgramSize).result = .ok context) ∨
      (∃ failure, (assemble profile source maxLabels maxProgramSize).result = .error failure ∧
        failure.NamesLine source) ∨
      ((∃ statement ∈ statements source, ¬ statement.Readable) ∧
        ∃ count, (assemble profile source maxLabels maxProgramSize).result =
          .error (.tooManyDigits count)) ∨
      HasLongInteger source maxLabels ∧
        (assemble profile source maxLabels maxProgramSize).result = .error (.unwritable {}) := by
  cases result : (assemble profile source maxLabels maxProgramSize).result with
  | ok context => exact .inl ⟨context, rfl⟩
  | error failure =>
      rcases exists_defect_of_error result with
        ⟨i, text, cause, stands, bad, rfl⟩ | ⟨unread, count, rfl⟩
      · obtain ⟨-, rejected⟩ | ⟨silent, unwritable⟩ := Place.reject_cases ⟨i + 1, text⟩ cause
        · exact .inr (.inl ⟨_, rfl, i, text, cause, stands, rejected⟩)
        · exact .inr (.inr (.inr ⟨bad.hasLongInteger silent, congrArg Except.error unwritable⟩))
      · exact .inr (.inr (.inl ⟨unread, count, rfl⟩))

/-! ### Numerals that are too long -/

/-- The instruction that **stores** a numeral in register 0, as a line of a program text. The
numeral may be of any length. -/
def storing (digits : Text) : Statement :=
  .instruction Mnemonic.store.name [['R', '0'], digits]

variable {digits : Text}

/-- A numeral of too many digits is given up as an immediate value, however large the value is. -/
theorem parseImmediate_of_long (place : Place) (numeral : IsNumeral digits)
    (long : maxDecimalDigits < digits.length) :
    parseImmediate place digits = .error (.tooManyDigits digits.length) := by
  have unbroken : Text.dropFinalNewline digits = digits :=
    Text.dropFinalNewline_of_getLast? fun last =>
      absurd (numeral.2 _ (List.mem_of_getLast? last)) (by decide)
  have shape : IsImmediate (Text.dropFinalNewline digits) (Nat.ofDigitChars 10 digits 0) := by
    rw [unbroken]
    exact ⟨digits, numeral, .inl ⟨.inl rfl, rfl⟩⟩
  rw [parseImmediate_of_isImmediate shape, numeral.countP_isDigit,
    if_neg (Nat.not_le_of_lt long)]

/-- An instruction line that stores such a numeral is not encoded, and the failure does not show the
line. -/
theorem encodeLine_of_long (context : Context) (offset : Nat) {line : Line}
    (stated : line.statement = storing digits) (numeral : IsNumeral digits)
    (long : maxDecimalDigits < digits.length) :
    context.encodeLine offset line = .error (.tooManyDigits digits.length) := by
  have refused := parseImmediate_of_long line.place numeral long
  have register : parseRegister line.place ['R', '0'] = .ok (.register 0 ['R', '0']) := rfl
  have read : parseTokens line.place [.register, .immediate] [['R', '0'], digits] =
      .error (.tooManyDigits digits.length) := by
    rw [parseTokens, parseOperand, register, parseTokens, parseOperand, refused]
    rfl
  have operands : parseOperands Mnemonic.store.definition line.place [['R', '0'], digits] =
      .error (.tooManyDigits digits.length) := read
  rw [encodeLine_eq stated, operands]
  rfl

/-- A program that stores a numeral of too many digits is **given up**, under every profile and
every limit of labels. The numeral is worked out before it is compared with the bound. -/
theorem assemble_of_long (profile : Profile) (maxLabels maxProgramSize : Int)
    (numeral : IsNumeral digits) (long : maxDecimalDigits < digits.length) :
    (assemble profile (printedSource [storing digits]) maxLabels maxProgramSize).result =
      .error (.tooManyDigits digits.length) := by
  have printable : (storing digits).Printable :=
    ⟨by decide, List.forall_mem_cons.mpr
      ⟨by decide, List.forall_mem_singleton.mpr numeral.isPlain⟩⟩
  have source : statements (printedSource [storing digits]) = [storing digits] :=
    statements_printedSource (List.cons_ne_nil _ _) (List.forall_mem_singleton.mpr printable)
  have named : FreeOf (fun _ => NamingDefect) (statements (printedSource [storing digits])) := by
    rw [source, freeOf_namingDefect_iff]
    exact fun name inside => nomatch List.mem_singleton.mp inside
  have placed : FreeOf (PlacingDefect maxLabels) (statements (printedSource [storing digits])) := by
    rw [source, freeOf_placingDefect_iff]
    exact ⟨List.nodup_nil, Int.le_max_right _ _⟩
  rw [← map_statement_sourceLines, List.map_eq_singleton_iff] at source
  obtain ⟨line, lines, stated⟩ := source
  have instruction : line.statement.isInstruction = true := by
    rw [stated]
    rfl
  have refused := encodeLine_of_long (.placing profile maxLabels [line]) 0 stated numeral long
  rw [assemble_of_placed named placed, lines]
  simp only [encodeLines_cons_of_encodeLine_error instruction refused]
  rfl

/-- A program with an immediate value of 4301 digits is not assembled, and **no line** is named. -/
theorem not_forall_namesLine :
    ¬ ∀ (source : Text) (failure : Failure),
      (assemble .classic source 50 256).result = .error failure → failure.NamesLine source := by
  intro all
  have numeral : IsNumeral (List.replicate 4301 '1') :=
    ⟨nofun, fun c inside => List.eq_of_mem_replicate inside ▸ rfl⟩
  have long : maxDecimalDigits < (List.replicate 4301 '1').length := by
    rw [List.length_replicate]
    decide
  obtain ⟨i, text, cause, -, same⟩ := all _ _ (assemble_of_long .classic 50 256 numeral long)
  cases same

end ByteMachine
