import Mathlib.Logic.Equiv.Basic
import ByteMachine.Assembler
import ByteMachine.Proofs.Source.Printed

/-!
# Renaming labels

The name of a label means nothing but which label it is. A `Renaming` gives every label name a new
one, no two the same, and it is put through a program: through the declarations, and through the
operands at the places where an instruction takes a label. Nothing else is touched, also where a
word, a register or a value happens to be spelled like a label.

Each function of the assembler commutes with that. What it gives for the renamed arguments is what
it gives for the arguments, renamed: `Renaming.outcome` says so for results that may be failures,
and `Renaming.outcome_bind` puts such functions together. Only the table of labels asks for the
names to stay apart, and it does so when a label is looked up, and nowhere else.

A text that is no label name keeps its spelling. As an operand it is refused for the same cause as
before, and a list of lines that was not read from a text may still declare it.

## Main results

* `Renaming.apply_injective`: texts stay apart.
* `parseOperands_rename`, `Context.label?_rename`, `Context.encodeLine_rename`: each function
  commutes with a renaming.
* `assembleLines_rename`: both passes over the renamed lines.
* `renamed_program_same`: what that leaves of the program.
-/

namespace ByteMachine

/-! ### Renamings -/

/-- A label name is an identifier that has no line feed at its end and is not too long. -/
theorem isLabelName_iff {name : Text} :
    (isIdentifier name = true ∧ name.dropFinalNewline = name) ∧ name.length ≤ maxLabelLength ↔
      IsLabelName name := by
  constructor
  · rintro ⟨⟨shape, unbroken⟩, short⟩
    rw [isIdentifier_iff, unbroken] at shape
    exact ⟨shape, short⟩
  · rintro ⟨shape, short⟩
    have unbroken : name.dropFinalNewline = name :=
      Text.dropFinalNewline_of_getLast? (shape.isPlain.hasEnds.getLast?_ne (by decide))
    exact ⟨⟨isIdentifier_iff.mpr (unbroken.symm ▸ shape), unbroken⟩, short⟩

instance (name : Text) : Decidable (IsLabelName name) :=
  decidable_of_iff _ isLabelName_iff

/-- A **renaming** takes label names to label names, different ones to different ones. -/
structure Renaming where
  toFun : {name : Text // IsLabelName name} → {name : Text // IsLabelName name}
  injective : Function.Injective toFun

variable (names : Renaming) {α β γ δ : Type} {name : Text}

namespace Renaming

/-- The new name. A text that is no label name stays as it is. -/
def apply (name : Text) : Text :=
  if valid : IsLabelName name then (names.toFun ⟨name, valid⟩).1 else name

theorem isLabelName_apply (valid : IsLabelName name) : IsLabelName (names.apply name) := by
  rw [apply, dif_pos valid]
  exact (names.toFun ⟨name, valid⟩).2

theorem apply_of_not (other : ¬ IsLabelName name) : names.apply name = name :=
  dif_neg other

/-- Different texts stay different, also where one of them is a label name and the other is none. -/
theorem apply_injective : Function.Injective names.apply := by
  intro first second same
  by_cases one : IsLabelName first
  · by_cases two : IsLabelName second
    · rw [apply, apply, dif_pos one, dif_pos two] at same
      exact congrArg Subtype.val (names.injective (Subtype.ext same))
    · rw [names.apply_of_not two] at same
      exact absurd (same ▸ names.isLabelName_apply one) two
  · by_cases two : IsLabelName second
    · rw [names.apply_of_not one] at same
      exact absurd (same ▸ names.isLabelName_apply two) one
    · rwa [names.apply_of_not one, names.apply_of_not two] at same

/-- The new text of an **operand** that stands where one of the given kind is taken. Only where a
label is taken there is a new one. -/
def token : OperandKind → Text → Text
  | .label, token => names.apply token
  | _, token => token

/-- The new texts of **operands** that stand where some of the given kinds are taken. What stands
behind them stays as it is. -/
def tokens : List OperandKind → List Text → List Text
  | kind :: kinds, token :: rest => names.token kind token :: tokens kinds rest
  | _, rest => rest

@[simp] theorem length_tokens (kinds : List OperandKind) (tokens : List Text) :
    (names.tokens kinds tokens).length = tokens.length := by
  induction kinds generalizing tokens with
  | nil => rfl
  | cons kind kinds ih =>
      cases tokens with
      | nil => rfl
      | cons token tokens => rw [Renaming.tokens, List.length_cons, ih, List.length_cons]

end Renaming

/-! ### Renamed programs -/

/-- A statement with its labels **renamed**: the one that it declares, and those among the operands
of an instruction that the table knows. -/
def Statement.rename : Statement → Statement
  | blank => blank
  | label name => label (names.apply name)
  | instruction word tokens => instruction word
      (names.tokens ((Mnemonic.ofName? word).elim [] Mnemonic.operandKinds) tokens)

/-- A line with its labels **renamed**. Its place shows the text as it was, since only what was read
from it matters. -/
def Line.rename (line : Line) : Line :=
  { line with statement := line.statement.rename names }

/-- An operand with its label **renamed**, if it is one. Registers and immediate values name no
label and stay as they are. -/
def Operand.rename : Operand → Operand
  | label name => label (names.apply name)
  | operand => operand

/-- A label renamed, at the same address and of the same line. -/
def Label.rename (label : Label) : Label :=
  { label with name := names.apply label.name }

/-- A branch site with its label renamed. -/
def BranchSite.rename (site : BranchSite) : BranchSite :=
  { site with label := names.apply site.label }

/-- A context with its labels renamed, also at the sites. -/
def Context.rename (context : Context) : Context :=
  { context with
    labels := context.labels.map (Label.rename names)
    sites := context.sites.map (BranchSite.rename names) }

/-- An encoded line with the label of its site renamed. -/
def Encoded.rename (encoded : Encoded) : Encoded :=
  { encoded with site := encoded.site.map (BranchSite.rename names) }

/-- A cause with the label that it names **renamed**, if it is one that was declared or looked
up. -/
def SourceError.Cause.rename : SourceError.Cause → SourceError.Cause
  | duplicateLabel name first => duplicateLabel (names.apply name) first
  | labelNotFound name => labelNotFound (names.apply name)
  | addressTooLarge name address => addressTooLarge (names.apply name) address
  | labelMoved name first second => labelMoved (names.apply name) first second
  | cause => cause

/-- A failure with the label that it names renamed, if its cause names one. -/
def Failure.rename : Failure → Failure
  | rejected error => rejected { error with cause := error.cause.rename names }
  | unplacedLabel name => unplacedLabel (names.apply name)
  | failure => failure

/-- Two failures are **alike**: source errors of one kind on one line, or two failures of the same
sort that are not tied to a line. -/
inductive Failure.Alike : Failure → Failure → Prop
  | rejected {first second : SourceError} : second.kind = first.kind →
      second.place = first.place → Alike (.rejected first) (.rejected second)
  | tooManyDigits (count : Nat) : Alike (.tooManyDigits count) (.tooManyDigits count)
  | unplacedLabel (name other : Text) : Alike (.unplacedLabel name) (.unplacedLabel other)
  | negativeAddress : Alike .negativeAddress .negativeAddress
  | unwritable (error : NumeralTooLong) : Alike (.unwritable error) (.unwritable error)

/-- A renamed failure is alike: the kind of an error does not depend on names. -/
theorem Failure.alike_rename (failure : Failure) : failure.Alike (failure.rename names) := by
  cases failure with
  | rejected error =>
      obtain ⟨cause, place⟩ := error
      refine .rejected ?_ rfl
      cases cause <;> rfl
  | tooManyDigits count => exact .tooManyDigits count
  | unplacedLabel name => exact .unplacedLabel name _
  | negativeAddress => exact .negativeAddress
  | unwritable error => exact .unwritable error

/-- A line is rejected for a renamed cause as it was for the cause. The integers that are
written into the message are no names. -/
@[simp] theorem Place.rename_reject (place : Place) (cause : SourceError.Cause) :
    (place.reject cause).rename names = place.reject (cause.rename names) := by
  have same : (⟨cause.rename names, place⟩ : SourceError).writable =
      (⟨cause, place⟩ : SourceError).writable := by
    cases cause <;> rfl
  simp only [reject, same]
  split <;> rfl

/-- An **outcome** renamed: a value as the given function renames it, or a failure. -/
def Renaming.outcome (f : α → β) : Except Failure α → Except Failure β
  | .ok value => .ok (f value)
  | .error failure => .error (failure.rename names)

/-- A pass renamed: the context that it leaves, and its **result**. The log has no names in it. -/
def Pass.rename (f : α → β) (pass : Pass α) : Pass β :=
  ⟨pass.context.rename names, pass.log, names.outcome f pass.result⟩

variable {f : α → β} {outcome : Except Failure α}

/-- Renamed outcomes are worked on with **renamed** outcomes, if the work commutes with the
renaming. Each function of the assembler is taken apart by this lemma. -/
theorem Renaming.outcome_bind {work : α → Except Failure γ} {rework : β → Except Failure δ}
    {further : γ → δ} (continues : ∀ a, rework (f a) = names.outcome further (work a)) :
    names.outcome f outcome >>= rework = names.outcome further (outcome >>= work) := by
  cases outcome with
  | ok value => exact continues value
  | error failure => rfl

/-- Being refused for a renamed cause is the renamed outcome of being refused for the cause. -/
theorem Renaming.outcome_reject {place : Place} {cause recause : SourceError.Cause}
    (renamed : cause.rename names = recause) :
    .error (place.reject recause) = names.outcome f (.error (place.reject cause)) := by
  rw [outcome, Place.rename_reject, renamed]

/-! ### Operands -/

/-- The value of a numeral has nothing to rename, and neither has the failure. -/
theorem decimalValue_rename (digits : Text) :
    names.outcome id (decimalValue digits) = decimalValue digits := by
  rw [decimalValue]
  split <;> rfl

/-- A register has nothing to rename, and what is refused is refused as it was. -/
theorem parseRegister_rename (place : Place) (token : Text) :
    parseRegister place token =
      names.outcome (Operand.rename names) (parseRegister place token) := by
  cases token with
  | nil => exact names.outcome_reject rfl
  | cons c rest =>
      simp only [parseRegister]
      split
      · cases digits? rest with
        | none => exact names.outcome_reject rfl
        | some digits =>
            simp only
            nth_rewrite 1 [← decimalValue_rename names digits]
            refine names.outcome_bind fun index => ?_
            rw [id]
            split
            · rfl
            · exact names.outcome_reject rfl
      · exact names.outcome_reject rfl

/-- An immediate value has nothing to rename, and what is refused is refused as it was. -/
theorem parseImmediate_rename (place : Place) (token : Text) :
    parseImmediate place token =
      names.outcome (Operand.rename names) (parseImmediate place token) := by
  simp only [parseImmediate]
  cases digits? (splitSign token).2 with
  | none => exact names.outcome_reject rfl
  | some digits =>
      simp only
      nth_rewrite 1 [← decimalValue_rename names digits]
      refine names.outcome_bind fun value => ?_
      rw [id]
      split
      · rfl
      · exact names.outcome_reject rfl

/-- A label name is read under its new spelling, and what is refused is refused as it was. -/
theorem parseLabelName_rename (place : Place) (name : Text) :
    parseLabelName place (names.apply name) =
      names.outcome names.apply (parseLabelName place name) := by
  have read {name : Text} (valid : IsLabelName name) : parseLabelName place name = .ok name :=
    parseLabelName_of_isLabelName valid (isLabelName_iff.mpr valid).1.2
  by_cases valid : IsLabelName name
  · rw [read valid, read (names.isLabelName_apply valid)]
    rfl
  · rw [names.apply_of_not valid, parseLabelName]
    split
    · split
      · rw [Renaming.outcome, names.apply_of_not valid]
      · exact names.outcome_reject rfl
    · exact names.outcome_reject rfl

/-- An operand of any kind is read renamed, also of a kind that does not exist. -/
theorem parseOperand_rename (place : Place) (kind : OperandKind) (token : Text) :
    parseOperand place kind (names.token kind token) =
      names.outcome (Operand.rename names) (parseOperand place kind token) := by
  cases kind with
  | register => exact parseRegister_rename names place token
  | immediate => exact parseImmediate_rename names place token
  | label =>
      have read := parseLabelName_rename names place token
      rw [Renaming.token, parseOperand, parseOperand, read]
      cases parseLabelName place token <;> rfl
  | unknown name => exact names.outcome_reject rfl

/-- The operands of an instruction are read renamed, one after the other. -/
theorem parseTokens_rename (place : Place) (kinds : List OperandKind) (tokens : List Text) :
    parseTokens place kinds (names.tokens kinds tokens) =
      names.outcome (List.map (Operand.rename names)) (parseTokens place kinds tokens) := by
  induction kinds generalizing tokens with
  | nil =>
      simp only [parseTokens]
      rfl
  | cons kind kinds ih =>
      cases tokens with
      | nil => rfl
      | cons token tokens =>
          rw [Renaming.tokens, parseTokens, parseOperand_rename, ih, parseTokens]
          refine names.outcome_bind fun operand => ?_
          exact names.outcome_bind fun operands => rfl

/-- The operands of an instruction are read **renamed**. Their number does not change, so it is
right for both or for none. -/
theorem parseOperands_rename (definition : Definition) (place : Place) (tokens : List Text) :
    parseOperands definition place (names.tokens definition.operandKinds tokens) =
      names.outcome (List.map (Operand.rename names))
        (parseOperands definition place tokens) := by
  rw [parseOperands, names.length_tokens, parseOperands]
  split
  · exact parseTokens_rename names place definition.operandKinds tokens
  · exact names.outcome_reject rfl

/-- A statement begins with the same word as before: instructions are not renamed, even if one is
called like a label. -/
@[simp] theorem Statement.mnemonic?_rename (statement : Statement) :
    (statement.rename names).mnemonic? = statement.mnemonic? := by
  cases statement <;> rfl

/-! ### The table of labels -/

namespace Context

variable (context : Context) (place : Place)

/-- A label is looked up under its new name, and no other is found there, since a renaming is
injective. -/
theorem label?_rename (name : Text) :
    (context.rename names).label? (names.apply name) =
      (context.label? name).map (Label.rename names) := by
  have same : (fun label : Label => decide (label.name = names.apply name)) ∘ Label.rename names =
      fun label => decide (label.name = name) := by
    funext label
    exact decide_eq_decide.mpr names.apply_injective.eq_iff
  rw [label?, Context.rename, List.find?_map, same, label?]

/-- A label is declared under its new name. It is a duplicate, or finds the table full, exactly if
it did before. -/
theorem addLabel_rename (name : Text) (address : Int) :
    (context.rename names).addLabel (names.apply name) address place =
      names.outcome (Context.rename names) (context.addLabel name address place) := by
  rw [addLabel, label?_rename, addLabel]
  cases context.label? name with
  | some label => exact names.outcome_reject rfl
  | none =>
      have full : (context.rename names).maxLabels ≤ (context.rename names).labels.length ↔
          context.maxLabels ≤ context.labels.length := by
        rw [Context.rename, List.length_map]
      simp only [Option.map_none, full]
      split
      · exact names.outcome_reject rfl
      · simp only [Renaming.outcome, Context.rename, List.map_append]
        rfl

/-- A label is referred to under its new name, and it is missing there exactly if it was missing
before. -/
theorem findLabel_rename (name : Text) :
    (context.rename names).findLabel (names.apply name) place =
      names.outcome (Label.rename names) (context.findLabel name place) := by
  rw [findLabel, label?_rename, findLabel]
  cases context.label? name with
  | none => exact names.outcome_reject rfl
  | some label => rfl

theorem checkLabel_rename (address : Nat) (name : Text) :
    (context.rename names).checkLabel address (names.apply name) place =
      names.outcome id (context.checkLabel address name place) := by
  rw [checkLabel, label?_rename, checkLabel]
  cases context.label? name with
  | none => rfl
  | some label =>
      simp only [Option.map_some, Label.rename]
      split
      · rfl
      · exact names.outcome_reject rfl

/-- The byte of a target does not depend on its name. The error about one that is no byte does. -/
theorem targetByte_rename (label : Label) :
    targetByte (label.rename names) place = names.outcome id (targetByte label place) := by
  have same : (label.rename names).address = label.address := rfl
  rw [targetByte, targetByte, same]
  split
  · exact names.outcome_reject rfl
  · split <;> rfl

theorem sizeOf_rename (statement : Statement) :
    (context.rename names).sizeOf (statement.rename names) = context.sizeOf statement := by
  rw [sizeOf, Statement.mnemonic?_rename, sizeOf]
  rfl

/-! ### Both passes -/

/-- Operands are encoded to the same bytes, and the last label among them is the renamed one. -/
theorem encodeOperands_rename (operands : List Operand) :
    (context.rename names).encodeOperands place (operands.map (Operand.rename names)) =
      names.outcome (fun encoded => (encoded.1, encoded.2.map (Label.rename names)))
        (context.encodeOperands place operands) := by
  induction operands with
  | nil => rfl
  | cons operand operands ih =>
      cases operand with
      | register index token | immediate value token =>
          rw [List.map_cons, Operand.rename, encodeOperands, ih, encodeOperands]
          · exact names.outcome_bind fun encoded => rfl
          · nofun
      | label name =>
          rw [List.map_cons, Operand.rename, encodeOperands, findLabel_rename, ih, encodeOperands]
          refine names.outcome_bind fun label => ?_
          have behind (carried : List UInt8) :
              (names.outcome (fun encoded => (encoded.1, encoded.2.map (Label.rename names)))
                (context.encodeOperands place operands) >>= fun encoded =>
                  .ok (carried ++ encoded.1, encoded.2.or (some (label.rename names)))) =
              names.outcome (fun encoded => (encoded.1, encoded.2.map (Label.rename names)))
                (context.encodeOperands place operands >>= fun encoded =>
                  .ok (carried ++ encoded.1, encoded.2.or (some label))) := by
            refine names.outcome_bind fun encoded => ?_
            obtain ⟨bytes, target⟩ := encoded
            cases target <;> rfl
          have profile : (context.rename names).profile = context.profile := rfl
          rw [profile]
          split
          · have carried : (targetByte (label.rename names) place).map ([·]) =
                names.outcome id ((targetByte label place).map ([·])) := by
              rw [targetByte_rename]
              cases targetByte label place <;> rfl
            rw [carried]
            exact names.outcome_bind behind
          · exact behind []

/-- A line is encoded to the same bytes at the same address, and refused for the **renamed** cause.
The label of its site is renamed as well. -/
theorem encodeLine_rename (offset : Nat) (line : Line) :
    (context.rename names).encodeLine offset (line.rename names) =
      names.outcome (Encoded.rename names) (context.encodeLine offset line) := by
  obtain ⟨place, statement, comment⟩ := line
  simp only [encodeLine, Line.rename, Statement.mnemonic?_rename]
  cases known : statement.mnemonic?.bind Mnemonic.ofName? with
  | none => exact names.outcome_reject rfl
  | some mnemonic =>
      have tokens : (statement.rename names).tokens =
          names.tokens mnemonic.definition.operandKinds statement.tokens := by
        cases statement with
        | blank => cases known
        | label => cases known
        | instruction word tokens =>
            have found : Mnemonic.ofName? word = some mnemonic := known
            rw [Statement.rename, found]
            rfl
      simp only
      rw [tokens, parseOperands_rename]
      refine names.outcome_bind fun operands => ?_
      rw [encodeOperands_rename]
      refine names.outcome_bind fun encoded => ?_
      obtain ⟨bytes, target⟩ := encoded
      cases target <;> rfl

/-- The labels are placed under their new names at the same addresses, by induction on the lines. -/
theorem placeLabels_rename (address : Nat) (lines : List Line) :
    (context.rename names).placeLabels address (lines.map (Line.rename names)) =
      ((context.placeLabels address lines).1.rename names,
        names.outcome id (context.placeLabels address lines).2) := by
  -- A label changes the context, so the induction is for every context.
  induction lines generalizing context address with
  | nil => rfl
  | cons line lines ih =>
      obtain ⟨place, statement, comment⟩ := line
      rw [List.map_cons, placeLabels, placeLabels, Line.rename]
      cases statement with
      | blank => exact ih context address
      | label name =>
          simp only [Statement.rename, addLabel_rename]
          cases context.addLabel name address place with
          | ok extended => exact ih extended address
          | error failure => rfl
      | instruction word tokens =>
          simp only [sizeOf_rename]
          exact ih context _

/-- The instructions are encoded one after the other as before, by induction on the lines. -/
theorem encodeLines_rename (offset address : Nat) (lines : List Line) :
    (context.rename names).encodeLines offset address (lines.map (Line.rename names)) =
      ((context.encodeLines offset address lines).1.map (Encoded.rename names),
        names.outcome id (context.encodeLines offset address lines).2) := by
  induction lines generalizing offset address with
  | nil => rfl
  | cons line lines ih =>
      have encoded := context.encodeLine_rename names offset line
      obtain ⟨place, statement, comment⟩ := line
      rw [List.map_cons, encodeLines, encodeLines]
      cases statement with
      | blank => exact ih offset address
      | label name =>
          simp only [Line.rename, Statement.rename, checkLabel_rename]
          cases context.checkLabel address name place with
          | ok _ => exact ih offset address
          | error failure => rfl
      | instruction word tokens =>
          have size := context.sizeOf_rename names (.instruction word tokens)
          simp only [Line.rename, Statement.rename] at encoded size ⊢
          rw [encoded, size]
          cases context.encodeLine offset ⟨place, .instruction word tokens, comment⟩ with
          | error failure => rfl
          | ok made =>
              have rest := ih (offset + made.entry.bytes.length)
                (address + context.sizeOf (.instruction word tokens))
              simp only [Renaming.outcome, Encoded.rename]
              rw [rest]
              rfl

theorem extend_rename (lines : List Encoded) :
    (context.rename names).extend (lines.map (Encoded.rename names)) =
      (context.extend lines).rename names := by
  have sites : (lines.map (Encoded.rename names)).filterMap Encoded.site =
      (lines.filterMap Encoded.site).map (BranchSite.rename names) := by
    rw [List.filterMap_map, List.map_filterMap]
    rfl
  have entries : (lines.map (Encoded.rename names)).map Encoded.entry = lines.map Encoded.entry :=
    List.map_map
  have bytes : ((lines.map (Encoded.rename names)).flatMap fun line => line.entry.bytes) =
      lines.flatMap fun line => line.entry.bytes :=
    List.flatMap_map ..
  simp only [Context.rename, extend, sites, entries, bytes, List.map_append]

theorem firstPass_rename (lines : List Line) :
    (context.rename names).firstPass (lines.map (Line.rename names)) =
      (context.firstPass lines).rename names id := by
  rw [firstPass, placeLabels_rename, firstPass]
  generalize context.placeLabels 0 lines = placed
  obtain ⟨placed, result⟩ := placed
  have count : (placed.rename names).labels.length = placed.labels.length :=
    List.length_map _
  cases result with
  | ok address =>
      simp only [Renaming.outcome, count]
      rfl
  | error failure => rfl

theorem secondPass_rename (lines : List Line) :
    (context.rename names).secondPass (lines.map (Line.rename names)) =
      (context.secondPass lines).rename names id := by
  have length : (context.rename names).program.length = context.program.length := rfl
  rw [secondPass, length, encodeLines_rename, secondPass]
  generalize context.encodeLines context.program.length 0 lines = encoded
  obtain ⟨encoded, result⟩ := encoded
  simp only [extend_rename]
  cases result <;> rfl

end Context

/-- **Both passes** over the renamed lines: the log is the same, and the outcome is renamed. -/
theorem assembleLines_rename (context : Context) (maxProgramSize : Int) (lines : List Line) :
    (assembleLines (context.rename names) maxProgramSize (lines.map (Line.rename names))).log =
        (assembleLines context maxProgramSize lines).log ∧
      (assembleLines (context.rename names) maxProgramSize (lines.map (Line.rename names))).result =
        names.outcome (Context.rename names)
          (assembleLines context maxProgramSize lines).result := by
  rw [assembleLines, Context.firstPass_rename, assembleLines]
  generalize context.firstPass lines = first
  obtain ⟨placed, log, result⟩ := first
  cases result with
  | error failure => exact ⟨rfl, rfl⟩
  | ok address =>
      simp only [Pass.rename, Renaming.outcome, Context.secondPass_rename]
      generalize placed.secondPass lines = second
      obtain ⟨left, further, result⟩ := second
      cases result with
      | error failure => exact ⟨rfl, rfl⟩
      | ok program => exact ⟨rfl, rfl⟩

/-- **Renaming labels** does not change the program. The two passes over the renamed lines, from an
empty context on, leave the same program and the same listing, and the same labels and sites in the
same order under their new names. Where the two passes fail, they fail again, with the same sort of
failure; and a source error has the same kind and stands on the same line. -/
theorem renamed_program_same (profile : Profile) (maxLabels maxProgramSize : Int)
    (lines : List Line) :
    let run := assembleLines { profile, maxLabels } maxProgramSize
    (run (lines.map (Line.rename names))).log = (run lines).log ∧
    (∀ context, (run lines).result = .ok context →
      ∃ other, (run (lines.map (Line.rename names))).result = .ok other ∧
        other.program = context.program ∧ other.listing = context.listing ∧
        other.labels = context.labels.map (Label.rename names) ∧
        other.sites = context.sites.map (BranchSite.rename names)) ∧
    ∀ failure, (run lines).result = .error failure →
      ∃ other, (run (lines.map (Line.rename names))).result = .error other ∧
        failure.Alike other := by
  intro run
  have empty : Context.rename names { profile, maxLabels } = { profile, maxLabels } := rfl
  have both := assembleLines_rename names { profile, maxLabels } maxProgramSize lines
  rw [empty] at both
  obtain ⟨log, result⟩ := both
  refine ⟨log, fun context succeeds => ?_, fun failure fails => ?_⟩
  · exact ⟨context.rename names, result.trans (congrArg _ succeeds), rfl, rfl, rfl, rfl⟩
  · exact ⟨failure.rename names, result.trans (congrArg _ fails), failure.alike_rename names⟩

/-- A label may be given the spelling of a register: the operand at the place of the register is
none of the labels, and the program stays the same. -/
theorem exists_loop_renamed :
    let names : Renaming :=
      ⟨Equiv.swap ⟨"LOOP".toList, by decide⟩ ⟨"R1".toList, by decide⟩, Equiv.injective _⟩
    let line (number : Int) (statement : Statement) : Line := ⟨⟨number, []⟩, statement, none⟩
    let lines := [line 1 (.label "LOOP".toList),
      line 2 (.instruction "IF".toList ["R1".toList, "0".toList, "LOOP".toList])]
    lines.map (Line.rename names) = [line 1 (.label "R1".toList),
      line 2 (.instruction "IF".toList ["R1".toList, "0".toList, "R1".toList])] ∧
    ∃ context, (assembleLines ⟨.resolved, 1, [], [], [], []⟩ 256 lines).result = .ok context ∧
      ∃ other, (assembleLines ⟨.resolved, 1, [], [], [], []⟩ 256
          (lines.map (Line.rename names))).result = .ok other ∧
        other.program = context.program := by
  intro names line lines
  have made : ∃ context,
      (assembleLines ⟨.resolved, 1, [], [], [], []⟩ 256 lines).result = .ok context :=
    ⟨_, by rfl⟩
  obtain ⟨context, succeeds⟩ := made
  obtain ⟨other, again, program, -⟩ :=
    (renamed_program_same names .resolved 1 256 lines).2.1 context succeeds
  exact ⟨by decide, context, succeeds, other, again, program⟩

end ByteMachine
