import ByteMachine.Proofs.Source.Rejecting
import ByteMachine.Proofs.Source.Spacing

/-!
# Reading corresponding lines

Two program texts with the same code on corresponding lines are read alike. Nothing that reads
a line looks at its number or at its text as a whole: both go into the place that an error
shows, and from there nowhere else. So it is enough to say once what it means for two places to
correspond, and to carry that through everything that is read at a place.

`SameOutcome` is the relation between the two results: values that correspond, or failures that
do. Failures correspond if they have the same cause, up to the line that a second declaration
points back to, and were found on corresponding lines.

## Main results

* `SameOutcome.map`, `SameOutcome.bind`: outcomes that correspond go on corresponding.
* `sameOutcome_parseOperands`, `sameOutcome_readLine`: reading at corresponding places.
* `Respaced.sameOutcome_readLinesFrom`: reading texts that are respaced.
-/

namespace ByteMachine

/-! ### Corresponding places and failures -/

/-- A place **moves** to another: their numbers correspond, and their texts have the same code. -/
structure Place.Moves (shift : Int → Int) (first second : Place) : Prop where
  lineNum : second.lineNum = shift first.lineNum
  code : codeOf second.text = codeOf first.text

/-- A cause, with the line that it **points back to** under its new number. Only a label that is
declared twice points back to a line. -/
def SourceError.Cause.renumber (shift : Int → Int) : SourceError.Cause → SourceError.Cause
  | duplicateLabel name first => duplicateLabel name (shift first)
  | cause => cause

/-- A failure **moves** to another: what a cause ends in to what the same cause ends in at a
corresponding place, and any other failure to itself. -/
inductive Failure.Moves (shift : Int → Int) : Failure → Failure → Prop
  | rejected {here there : Place} (cause : SourceError.Cause) : here.Moves shift there →
      Moves shift (here.reject cause) (there.reject (cause.renumber shift))
  | tooManyDigits (count : Nat) : Moves shift (.tooManyDigits count) (.tooManyDigits count)
  | unplacedLabel (name : Text) : Moves shift (.unplacedLabel name) (.unplacedLabel name)
  | negativeAddress : Moves shift .negativeAddress .negativeAddress

variable {shift : Int → Int} {here there : Place}

/-- At a corresponding place a cause shows the new numbers of the lines, and no others. -/
theorem Place.Moves.lineNumbers_eq (moves : here.Moves shift there) (cause : SourceError.Cause) :
    (⟨cause.renumber shift, there⟩ : SourceError).lineNumbers =
      (⟨cause, here⟩ : SourceError).lineNumbers.map shift := by
  cases cause <;> simp [SourceError.lineNumbers, SourceError.Cause.renumber, moves.lineNum]

/-- Whether a message can be written is the same at corresponding places, if the new numbers of
the lines are as short as the old ones. -/
theorem Place.Moves.writable_eq (moves : here.Moves shift there) {cause : SourceError.Cause}
    (short : ∀ n ∈ (⟨cause, here⟩ : SourceError).lineNumbers,
      Text.isShort (shift n) = Text.isShort n) :
    (⟨cause.renumber shift, there⟩ : SourceError).writable =
      (⟨cause, here⟩ : SourceError).writable := by
  have line : Text.isShort there.lineNum = Text.isShort here.lineNum :=
    moves.lineNum ▸ short _ List.mem_cons_self
  cases cause with
  | duplicateLabel name first =>
      have back := short first (List.mem_cons_of_mem _ List.mem_cons_self)
      simp only [SourceError.writable, SourceError.numbers, SourceError.Cause.renumber,
        SourceError.Cause.numbers, List.all_cons, line, back]
  | _ =>
      simp only [SourceError.writable, SourceError.numbers, SourceError.Cause.renumber,
        List.all_cons, line]

/-- Two **outcomes are the same** up to a relation between values: both succeed with values that
are related, or both fail and the one failure moves to the other. -/
inductive SameOutcome {α β : Type} (shift : Int → Int) (Same : α → β → Prop) :
    Except Failure α → Except Failure β → Prop
  | ok {a : α} {b : β} : Same a b → SameOutcome shift Same (.ok a) (.ok b)
  | error {first second : Failure} : first.Moves shift second →
      SameOutcome shift Same (.error first) (.error second)

variable {α β γ δ : Type} {Same : α → β → Prop} {Alike : γ → δ → Prop}
  {first : Except Failure α} {second : Except Failure β}

namespace SameOutcome

/-- Outcomes stay the same when related values are mapped to related values. A failure is passed on
as it is. -/
theorem map (same : SameOutcome shift Same first second) {f : α → γ} {g : β → δ}
    (maps : ∀ a b, Same a b → Alike (f a) (g b)) :
    SameOutcome shift Alike (first.map f) (second.map g) := by
  cases same with
  | ok related => exact .ok (maps _ _ related)
  | error moves => exact .error moves

/-- Outcomes stay the same when related values are worked on with the same outcome. A failure hides
what would have followed. -/
theorem bind (same : SameOutcome shift Same first second) {f : α → Except Failure γ}
    {g : β → Except Failure δ}
    (continues : ∀ a b, Same a b → SameOutcome shift Alike (f a) (g b)) :
    SameOutcome shift Alike (first >>= f) (second >>= g) := by
  cases same with
  | ok related => exact continues _ _ related
  | error moves => exact .error moves

/-- Corresponding places are refused alike for a cause that points at no other line. -/
theorem reject (moves : here.Moves shift there) {cause : SourceError.Cause}
    (plain : cause.renumber shift = cause) :
    SameOutcome shift Same (.error (here.reject cause)) (.error (there.reject cause)) := by
  have moved := Failure.Moves.rejected cause moves
  rw [plain] at moved
  exact .error moved

end SameOutcome

/-! ### Reading operands -/

/-- A numeral has the same value everywhere, or is too long everywhere: it is worked out without a
look at the place. -/
theorem sameOutcome_decimalValue (shift : Int → Int) (digits : Text) :
    SameOutcome shift Eq (decimalValue digits) (decimalValue digits) := by
  rw [decimalValue]
  split
  · exact .ok rfl
  · exact .error (.tooManyDigits _)

/-- A register is the same one at corresponding places. The place goes into the errors only. -/
theorem sameOutcome_parseRegister (moves : here.Moves shift there) (token : Text) :
    SameOutcome shift Eq (parseRegister here token) (parseRegister there token) := by
  cases token with
  | nil => exact .reject moves rfl
  | cons c rest =>
      simp only [parseRegister]
      split
      · cases digits? rest with
        | none => exact .reject moves rfl
        | some digits =>
            refine (sameOutcome_decimalValue shift digits).bind ?_
            rintro index _ rfl
            split
            · exact .ok rfl
            · exact .reject moves rfl
      · exact .reject moves rfl

/-- An immediate value is the same one at corresponding places. The place goes into the errors
only. -/
theorem sameOutcome_parseImmediate (moves : here.Moves shift there) (token : Text) :
    SameOutcome shift Eq (parseImmediate here token) (parseImmediate there token) := by
  simp only [parseImmediate]
  cases digits? (splitSign token).2 with
  | none => exact .reject moves rfl
  | some digits =>
      refine (sameOutcome_decimalValue shift digits).bind ?_
      rintro value _ rfl
      split
      · exact .ok rfl
      · exact .reject moves rfl

/-- A label name is the same one at corresponding places. The place goes into the errors only. -/
theorem sameOutcome_parseLabelName (moves : here.Moves shift there) (name : Text) :
    SameOutcome shift Eq (parseLabelName here name) (parseLabelName there name) := by
  simp only [parseLabelName]
  split
  · split
    · exact .ok rfl
    · exact .reject moves rfl
  · exact .reject moves rfl

/-- An operand is the same one at corresponding places, of whatever kind it is. -/
theorem sameOutcome_parseOperand (moves : here.Moves shift there) (kind : OperandKind)
    (token : Text) :
    SameOutcome shift Eq (parseOperand here kind token) (parseOperand there kind token) := by
  cases kind with
  | register => exact sameOutcome_parseRegister moves token
  | immediate => exact sameOutcome_parseImmediate moves token
  | label =>
      refine (sameOutcome_parseLabelName moves token).map ?_
      rintro name _ rfl
      rfl
  | unknown name => exact .reject moves rfl

/-- Tokens are the same operands at corresponding places, by induction on the kinds. -/
theorem sameOutcome_parseTokens (moves : here.Moves shift there) (kinds : List OperandKind)
    (tokens : List Text) :
    SameOutcome shift Eq (parseTokens here kinds tokens) (parseTokens there kinds tokens) := by
  induction kinds generalizing tokens with
  | nil =>
      simp only [parseTokens]
      exact .ok rfl
  | cons kind kinds ih =>
      cases tokens with
      | nil => exact .ok rfl
      | cons token tokens =>
          refine (sameOutcome_parseOperand moves kind token).bind ?_
          rintro operand _ rfl
          refine (ih tokens).bind ?_
          rintro operands _ rfl
          exact .ok rfl

/-- An instruction has the same **operands** at corresponding places, or is refused at both. -/
theorem sameOutcome_parseOperands (moves : here.Moves shift there) (definition : Definition)
    (tokens : List Text) :
    SameOutcome shift Eq (parseOperands definition here tokens)
      (parseOperands definition there tokens) := by
  rw [parseOperands, parseOperands]
  split
  · exact sameOutcome_parseTokens moves _ tokens
  · exact .reject moves rfl

/-! ### Reading lines -/

/-- A line **moves** to another that says the same at a corresponding place. The comments may be
different. -/
structure Line.Moves (shift : Int → Int) (first second : Line) : Prop where
  place : first.place.Moves shift second.place
  statement : second.statement = first.statement

/-- Lines **correspond** to lines that say the same, with blank ones in between. The relation is not
symmetric: only the second lines may have more. -/
inductive Correspond (shift : Int → Int) : List Line → List Line → Prop
  | nil : Correspond shift [] []
  | same {line other : Line} {first second : List Line} : line.Moves shift other →
      Correspond shift first second → Correspond shift (line :: first) (other :: second)
  | inserted {line : Line} {first second : List Line} : line.statement = .blank →
      Correspond shift first second → Correspond shift first (line :: second)

/-- The same code is read as the same statement at corresponding places. -/
theorem sameOutcome_readStatement (moves : here.Moves shift there) (code : Text) :
    SameOutcome shift Eq (readStatement here code) (readStatement there code) := by
  simp only [readStatement]
  split
  · exact .ok rfl
  · split
    · refine (sameOutcome_parseLabelName moves _).map ?_
      rintro name _ rfl
      rfl
    · exact .ok rfl

/-- Corresponding places are **read** as corresponding lines: their texts have the same code. -/
theorem sameOutcome_readLine (moves : here.Moves shift there) :
    SameOutcome shift (Line.Moves shift) (readLine here) (readLine there) := by
  rw [readLine_eq, readLine_eq, moves.code]
  refine (sameOutcome_readStatement moves _).map ?_
  rintro statement _ rfl
  exact ⟨moves, rfl⟩

theorem readLine_of_codeOf_eq_nil {place : Place} (empty : codeOf place.text = []) :
    readLine place = .ok ⟨place, .blank, (cutComment place.text).2⟩ := by
  rw [readLine_eq, empty]
  rfl

/-- Texts that are **respaced** are read as corresponding lines, or both fail at the corresponding
line. -/
theorem Respaced.sameOutcome_readLinesFrom {n m : Int} {texts others : List Text}
    (respaced : Respaced shift n texts m others) :
    SameOutcome shift (Correspond shift) (readLinesFrom n texts) (readLinesFrom m others) := by
  induction respaced with
  | nil => exact .ok .nil
  | same number code _ ih =>
      refine (sameOutcome_readLine ⟨number, code⟩).bind fun line other moves => ?_
      refine ih.bind fun lines others correspond => ?_
      exact .ok (.same moves correspond)
  | @inserted n m line texts others empty _ ih =>
      have blank := @readLine_of_codeOf_eq_nil ⟨m, line⟩ empty
      rw [readLinesFrom, blank]
      generalize readLinesFrom n texts = read at ih ⊢
      generalize readLinesFrom (m + 1) others = reread at ih ⊢
      cases ih with
      | ok correspond => exact .ok (.inserted rfl correspond)
      | error moves => exact .error moves

end ByteMachine
