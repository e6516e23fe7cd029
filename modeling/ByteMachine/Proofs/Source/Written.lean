import Mathlib.Data.List.Forall2
import ByteMachine.Instruction.Basic
import ByteMachine.Proofs.Source.Grammar
import ByteMachine.Source.Line

/-!
# Instructions as they are written

A `Written` instruction is what an instruction line of a program says: like an instruction of
an image, but with the name of a label where a branch goes. Its operands are the `values` of
the tokens of the line, kind by kind as the instruction table has them, so a line writes an
instruction exactly when its first word is the name and its tokens spell the values.

The reader of operands is described against this: it reads the tokens of a written
instruction, and on any other tokens it fails with what is wrong with the leftmost bad one.

## Main results

* `exists_written`: every list of values of the right kinds belongs to a written instruction.
* `writes_or_operandsDefect`, `Statement.Writes.not_operandsDefect`: the tokens of an instruction
  either write it or have a defect.
* `parseOperands_of_spells`, `parseOperands_of_operandsDefect`, `parseOperands_cases`: the reader
  of operands, case by case.
-/

namespace ByteMachine

/-- An **instruction as it is written**: a branch names the label that it goes to, where the machine
instruction has an address. -/
inductive Written
  | exit
  | store (register value : UInt8)
  | load (register value : UInt8)
  | add (target source value : UInt8)
  | sub (target source value : UInt8)
  | branchIf (register value : UInt8) (label : Text)
  | jump (label : Text)
  | display (register : UInt8)
  deriving DecidableEq, Repr

namespace Written

/-- The row of the instruction table that a written instruction belongs to. -/
def mnemonic : Written → Mnemonic
  | exit => .exit
  | store _ _ => .store
  | load _ _ => .load
  | add _ _ _ => .add
  | sub _ _ _ => .sub
  | branchIf _ _ _ => .branchIf
  | jump _ => .jump
  | display _ => .display

/-- The **values** of the operands, in the order in which they are written. Their kinds are those of
the row of the table. -/
def values : Written → List Value
  | exit => []
  | store register value => [.register register, .immediate value]
  | load register value => [.register register, .immediate value]
  | add target source value => [.register target, .register source, .immediate value]
  | sub target source value => [.register target, .register source, .immediate value]
  | branchIf register value label => [.register register, .immediate value, .label label]
  | jump label => [.label label]
  | display register => [.register register]

/-- The label that a branch goes to, `IF` or `JMP`. No other instruction has one. -/
def label? : Written → Option Text
  | branchIf _ _ label => some label
  | jump label => some label
  | _ => none

/-- The values are of the kinds that the instruction table lists, in the order of the table. -/
@[simp] theorem map_kind_values (written : Written) :
    written.values.map Value.kind = written.mnemonic.operandKinds := by
  cases written <;> rfl

/-- Values of the right kinds are those of a written instruction. So an instruction is determined by
its row of the table and its values. -/
theorem exists_written {mnemonic : Mnemonic} {values : List Value}
    (kinds : values.map Value.kind = mnemonic.operandKinds) :
    ∃ written : Written, written.mnemonic = mnemonic ∧ written.values = values :=
  match mnemonic, values, kinds with
  | .exit, [], _ => ⟨.exit, rfl, rfl⟩
  | .store, [.register register, .immediate value], _ => ⟨.store register value, rfl, rfl⟩
  | .load, [.register register, .immediate value], _ => ⟨.load register value, rfl, rfl⟩
  | .add, [.register target, .register source, .immediate value], _ =>
    ⟨.add target source value, rfl, rfl⟩
  | .sub, [.register target, .register source, .immediate value], _ =>
    ⟨.sub target source value, rfl, rfl⟩
  | .branchIf, [.register register, .immediate value, .label label], _ =>
    ⟨.branchIf register value label, rfl, rfl⟩
  | .jump, [.label label], _ => ⟨.jump label, rfl, rfl⟩
  | .display, [.register register], _ => ⟨.display register, rfl, rfl⟩

end Written

/-- The statement **writes** an instruction: its word is the name, and its tokens spell the
values. -/
def Statement.Writes (statement : Statement) (written : Written) : Prop :=
  ∃ tokens, statement = .instruction written.mnemonic.name tokens ∧
    List.Forall₂ Spells tokens written.values

/-! ### Reading one operand -/

/-- A token at the place of an operand whose value, if it is a number, **can be worked out**:
it has no more digits than that allows. -/
def Readable (kind : OperandKind) (token : Text) : Prop :=
  kind = .label ∨ token.countP Char.isDigit ≤ maxDecimalDigits

instance (kind : OperandKind) (token : Text) : Decidable (Readable kind token) :=
  inferInstanceAs (Decidable (_ ∨ _))

/-- A token that spells a value is read as the operand of that value, unless it has too many digits
to be worked out. -/
theorem parseOperand_of_spells (place : Place) {token : Text} {value : Value}
    (spells : Spells token value) (unbroken : token.dropFinalNewline = token) :
    parseOperand place value.kind token =
      if Readable value.kind token then .ok (value.operand token)
      else .error (.tooManyDigits (token.countP Char.isDigit)) := by
  cases spells with
  | @register index shape =>
      have small : index.toNat ≤ 0xFF := Nat.le_of_lt_succ index.toNat_lt
      simp only [parseOperand, Value.kind, parseRegister_of_isRegister (unbroken.symm ▸ shape),
        if_pos small, UInt8.ofNat_toNat, Value.operand, Readable, reduceCtorEq, false_or]
  | @immediate value shape =>
      have small : 0 ≤ (value.toNat : Int) ∧ (value.toNat : Int) ≤ 0xFF := by
        have := value.toNat_lt
        omega
      simp only [parseOperand, Value.kind, parseImmediate_of_isImmediate (unbroken.symm ▸ shape),
        if_pos small, Int.toNat_natCast, UInt8.ofNat_toNat, Value.operand, Readable, reduceCtorEq,
        false_or]
  | label valid =>
      have shape : IsName token.dropFinalNewline := unbroken.symm ▸ valid.1
      simp only [parseOperand, Value.kind, parseLabelName_of_isName shape, if_pos valid.2,
        Except.map, Value.operand, Readable, true_or, if_true]

/-- A token with a defect is not read. Where its value could be worked out, the defect is
the reason. -/
theorem parseOperand_of_tokenDefect (place : Place) {token : Text} {kind : OperandKind}
    {cause : SourceError.Cause} (defect : TokenDefect token kind cause)
    (unbroken : token.dropFinalNewline = token) :
    parseOperand place kind token = .error (place.reject cause) ∨
      ¬ Readable kind token ∧
        parseOperand place kind token = .error (.tooManyDigits (token.countP Char.isDigit)) := by
  cases defect with
  | register shape => exact .inl (parseRegister_of_not_isRegister (unbroken.symm ▸ shape))
  | @registerTooLarge index shape large =>
      rw [parseOperand, parseRegister_of_isRegister (unbroken.symm ▸ shape),
        if_neg (show ¬ index ≤ 0xFF by omega)]
      by_cases short : token.countP Char.isDigit ≤ maxDecimalDigits
      · exact .inl (if_pos short)
      · exact .inr ⟨by simp [Readable, short], if_neg short⟩
  | immediate shape => exact .inl (parseImmediate_of_not_isImmediate (unbroken.symm ▸ shape))
  | immediateOutOfRange shape large =>
      rw [parseOperand, parseImmediate_of_isImmediate (unbroken.symm ▸ shape), if_neg large]
      by_cases short : token.countP Char.isDigit ≤ maxDecimalDigits
      · exact .inl (if_pos short)
      · exact .inr ⟨by simp [Readable, short], if_neg short⟩
  | label defect =>
      rw [parseOperand, parseLabelName_of_nameDefect defect unbroken]
      exact .inl rfl

/-! ### Reading the operands of an instruction -/

/-- What is wrong with the **leftmost** bad one of the tokens at the places of operands. The tokens
in front of it all spell values. -/
inductive TokensDefect : List Text → List OperandKind → SourceError.Cause → Prop
  | here {token : Text} {tokens : List Text} {kind : OperandKind} {kinds : List OperandKind}
      {cause : SourceError.Cause} : TokenDefect token kind cause →
      TokensDefect (token :: tokens) (kind :: kinds) cause
  | later {token : Text} {tokens : List Text} {value : Value} {kinds : List OperandKind}
      {cause : SourceError.Cause} : Spells token value → TokensDefect tokens kinds cause →
      TokensDefect (token :: tokens) (value.kind :: kinds) cause

/-- Tokens that spell values are read as the operands of these values, if all their numbers can be
worked out. -/
theorem parseTokens_of_spells {place : Place} {tokens : List Text} {values : List Value}
    (spells : List.Forall₂ Spells tokens values)
    (readable : List.Forall₂ Readable (values.map Value.kind) tokens)
    (unbroken : ∀ token ∈ tokens, token.dropFinalNewline = token) :
    parseTokens place (values.map Value.kind) tokens =
      .ok (List.zipWith Value.operand tokens values) := by
  induction spells with
  | nil => rfl
  | @cons token value tokens values spells _ ih =>
      rw [List.map_cons, List.forall₂_cons] at readable
      rw [List.forall_mem_cons] at unbroken
      rw [List.map_cons, parseTokens, parseOperand_of_spells place spells unbroken.1,
        if_pos readable.1, ih readable.2 unbroken.2]
      rfl

/-- Tokens one of which has a defect are refused for the leftmost defect, if all their numbers can
be worked out. -/
theorem parseTokens_of_tokensDefect {place : Place} {tokens : List Text}
    {kinds : List OperandKind} {cause : SourceError.Cause}
    (defect : TokensDefect tokens kinds cause) (readable : List.Forall₂ Readable kinds tokens)
    (unbroken : ∀ token ∈ tokens, token.dropFinalNewline = token) :
    parseTokens place kinds tokens = .error (place.reject cause) := by
  induction defect with
  | here defect =>
      rw [List.forall₂_cons] at readable
      rw [List.forall_mem_cons] at unbroken
      have failed := (parseOperand_of_tokenDefect place defect
        unbroken.1).resolve_right fun unread => unread.1 readable.1
      rw [parseTokens, failed]
      rfl
  | later spells _ ih =>
      rw [List.forall₂_cons] at readable
      rw [List.forall_mem_cons] at unbroken
      rw [parseTokens, parseOperand_of_spells place spells unbroken.1, if_pos readable.1,
        ih readable.2 unbroken.2]
      rfl

/-- Reading tokens, case by case: they spell values and are read as these, or the leftmost
bad one is refused, or some number cannot be worked out. -/
theorem parseTokens_cases (place : Place) {kinds : List OperandKind} {tokens : List Text}
    (known : ∀ kind ∈ kinds, ∀ name, kind ≠ .unknown name)
    (same : tokens.length = kinds.length)
    (unbroken : ∀ token ∈ tokens, token.dropFinalNewline = token) :
    (∃ values : List Value, values.map Value.kind = kinds ∧ List.Forall₂ Spells tokens values ∧
        parseTokens place kinds tokens = .ok (List.zipWith Value.operand tokens values)) ∨
      (∃ cause, TokensDefect tokens kinds cause ∧
        parseTokens place kinds tokens = .error (place.reject cause)) ∨
      ¬ List.Forall₂ Readable kinds tokens ∧
        ∃ count, parseTokens place kinds tokens = .error (.tooManyDigits count) := by
  induction kinds generalizing tokens with
  | nil =>
      obtain rfl := List.eq_nil_of_length_eq_zero same
      exact .inl ⟨[], rfl, .nil, rfl⟩
  | cons kind kinds ih =>
      obtain ⟨token, tokens, rfl⟩ := List.exists_cons_of_length_eq_add_one same
      rw [List.forall_mem_cons] at known unbroken
      rcases spells_or_tokenDefect known.1 token with ⟨value, rfl, spells⟩ | ⟨cause, defect⟩
      · by_cases readable : Readable value.kind token
        · have head := parseOperand_of_spells place spells unbroken.1
          rw [if_pos readable] at head
          rcases ih known.2 (Nat.succ.inj same) unbroken.2 with
            ⟨values, rfl, all, read⟩ | ⟨cause, defect, failed⟩ | ⟨unread, count, failed⟩
          · refine .inl ⟨value :: values, rfl, .cons spells all, ?_⟩
            rw [parseTokens, head, read]
            rfl
          · refine .inr (.inl ⟨cause, .later spells defect, ?_⟩)
            rw [parseTokens, head, failed]
            rfl
          · refine .inr (.inr ⟨fun all => unread (List.forall₂_cons.mp all).2, count, ?_⟩)
            rw [parseTokens, head, failed]
            rfl
        · have head := parseOperand_of_spells place spells unbroken.1
          rw [if_neg readable] at head
          refine .inr (.inr ⟨fun all => readable (List.forall₂_cons.mp all).1,
            token.countP Char.isDigit, ?_⟩)
          rw [parseTokens, head]
          rfl
      · rcases parseOperand_of_tokenDefect place defect unbroken.1 with
          failed | ⟨unread, failed⟩
        · refine .inr (.inl ⟨cause, .here defect, ?_⟩)
          rw [parseTokens, failed]
          rfl
        · refine .inr (.inr ⟨fun all => unread (List.forall₂_cons.mp all).1,
            token.countP Char.isDigit, ?_⟩)
          rw [parseTokens, failed]
          rfl

/-- What is wrong with the **operands** of an instruction: their number, or the leftmost bad
one. -/
inductive OperandsDefect (mnemonic : Mnemonic) (tokens : List Text) : SourceError.Cause → Prop
  | count : tokens.length ≠ mnemonic.operandKinds.length →
      OperandsDefect mnemonic tokens
        (.operandCount mnemonic.name mnemonic.operandKinds.length tokens.length)
  | token {cause : SourceError.Cause} : tokens.length = mnemonic.operandKinds.length →
      TokensDefect tokens mnemonic.operandKinds cause → OperandsDefect mnemonic tokens cause

/-- The message about tokens shows no integer beside the number of the line. -/
theorem TokensDefect.numbers_eq_nil {tokens : List Text} {kinds : List OperandKind}
    {cause : SourceError.Cause} (defect : TokensDefect tokens kinds cause) :
    cause.numbers = [] := by
  induction defect with
  | here defect => exact defect.numbers_eq_nil
  | later _ _ ih => exact ih

/-- The message about the operands of an instruction shows none either, apart from their number. -/
theorem OperandsDefect.numbers_eq_nil {mnemonic : Mnemonic} {tokens : List Text}
    {cause : SourceError.Cause} (defect : OperandsDefect mnemonic tokens cause) :
    cause.numbers = [] := by
  cases defect with
  | count _ => rfl
  | token _ defect => exact defect.numbers_eq_nil

theorem Mnemonic.ne_unknown_of_mem_operandKinds {mnemonic : Mnemonic} {kind : OperandKind}
    (operand : kind ∈ mnemonic.operandKinds) (name : String) : kind ≠ .unknown name := by
  rintro rfl
  cases mnemonic <;> simp [operandKinds] at operand

/-- Tokens at the places of operands spell values of their kinds, or one of them has a defect. Their
number must be right. -/
theorem spells_or_tokensDefect {kinds : List OperandKind} {tokens : List Text}
    (known : ∀ kind ∈ kinds, ∀ name, kind ≠ .unknown name)
    (same : tokens.length = kinds.length) :
    (∃ values : List Value, values.map Value.kind = kinds ∧ List.Forall₂ Spells tokens values) ∨
      ∃ cause, TokensDefect tokens kinds cause := by
  induction kinds generalizing tokens with
  | nil =>
      obtain rfl := List.eq_nil_of_length_eq_zero same
      exact .inl ⟨[], rfl, .nil⟩
  | cons kind kinds ih =>
      obtain ⟨token, tokens, rfl⟩ := List.exists_cons_of_length_eq_add_one same
      rw [List.forall_mem_cons] at known
      rcases spells_or_tokenDefect known.1 token with ⟨value, rfl, spells⟩ | ⟨cause, defect⟩
      · rcases ih known.2 (Nat.succ.inj same) with ⟨values, rfl, all⟩ | ⟨cause, defect⟩
        · exact .inl ⟨value :: values, rfl, .cons spells all⟩
        · exact .inr ⟨cause, .later spells defect⟩
      · exact .inr ⟨cause, .here defect⟩

/-- Tokens that spell values have no defect among them, so the two cases never meet. -/
theorem not_tokensDefect_of_spells {tokens : List Text} {values : List Value}
    (spells : List.Forall₂ Spells tokens values) {cause : SourceError.Cause} :
    ¬ TokensDefect tokens (values.map Value.kind) cause := by
  induction spells with
  | nil => exact nofun
  | cons spells _ ih =>
      rw [List.map_cons]
      generalize kind : Value.kind _ = first
      intro defect
      cases defect with
      | here defect => exact spells.not_tokenDefect (kind ▸ defect)
      | later _ defect => exact ih defect

/-- The tokens of an instruction write it, or something is wrong with them: their number, or the
leftmost bad one. -/
theorem writes_or_operandsDefect (mnemonic : Mnemonic) (tokens : List Text) :
    (∃ written : Written, (Statement.instruction mnemonic.name tokens).Writes written) ∨
      ∃ cause, OperandsDefect mnemonic tokens cause := by
  by_cases same : tokens.length = mnemonic.operandKinds.length
  · rcases spells_or_tokensDefect (fun _ => Mnemonic.ne_unknown_of_mem_operandKinds) same with
      ⟨values, kinds, spells⟩ | ⟨cause, defect⟩
    · obtain ⟨written, rfl, rfl⟩ := Written.exists_written kinds
      exact .inl ⟨written, tokens, rfl, spells⟩
    · exact .inr ⟨cause, .token same defect⟩
  · exact .inr ⟨_, .count same⟩

/-- The names of instructions are told apart, so a word names one row of the table at most. -/
theorem Mnemonic.name_inj {first second : Mnemonic} :
    first.name = second.name ↔ first = second := by
  constructor
  · intro same
    have found := first.ofName?_name
    rw [same, second.ofName?_name] at found
    exact (Option.some.inj found).symm
  · exact fun same => same ▸ rfl

/-- Nothing is **wrong** with the operands of an instruction that is written: a statement never
writes an instruction and has a defect as well. -/
theorem Statement.Writes.not_operandsDefect {mnemonic : Mnemonic} {tokens : List Text}
    {written : Written} (writes : (Statement.instruction mnemonic.name tokens).Writes written)
    {cause : SourceError.Cause} : ¬ OperandsDefect mnemonic tokens cause := by
  obtain ⟨others, same, spells⟩ := writes
  obtain ⟨names, rfl⟩ := Statement.instruction.inj same
  obtain rfl := Mnemonic.name_inj.mp names
  intro defect
  cases defect with
  | count different =>
      refine different ?_
      rw [spells.length_eq, ← written.map_kind_values, List.length_map]
  | token _ defect =>
      rw [← written.map_kind_values] at defect
      exact not_tokensDefect_of_spells spells defect

/-- The operands of a written instruction are read as its values, if all their numbers can be worked
out. -/
theorem parseOperands_of_spells {place : Place} {tokens : List Text} {written : Written}
    (spells : List.Forall₂ Spells tokens written.values)
    (readable : List.Forall₂ Readable written.mnemonic.operandKinds tokens)
    (unbroken : ∀ token ∈ tokens, token.dropFinalNewline = token) :
    parseOperands written.mnemonic.definition place tokens =
      .ok (List.zipWith Value.operand tokens written.values) := by
  have same : tokens.length = written.mnemonic.definition.arity := readable.length_eq.symm
  rw [parseOperands, if_pos same, Mnemonic.definition, ← written.map_kind_values]
  exact parseTokens_of_spells spells (written.map_kind_values ▸ readable) unbroken

/-- Operands with a defect are refused for it, if all their numbers can be worked out. -/
theorem parseOperands_of_operandsDefect {place : Place} {mnemonic : Mnemonic}
    {tokens : List Text} {cause : SourceError.Cause}
    (defect : OperandsDefect mnemonic tokens cause)
    (readable : ∀ pair ∈ mnemonic.operandKinds.zip tokens, Readable pair.1 pair.2)
    (unbroken : ∀ token ∈ tokens, token.dropFinalNewline = token) :
    parseOperands mnemonic.definition place tokens = .error (place.reject cause) := by
  cases defect with
  | count different => exact if_neg different
  | token same defect =>
      have same' : tokens.length = mnemonic.definition.arity := same
      rw [parseOperands, if_pos same']
      refine parseTokens_of_tokensDefect defect ?_ unbroken
      exact List.forall₂_iff_zip.mpr ⟨same.symm, fun {kind token} pair => readable _ pair⟩

/-- **Reading operands**, case by case: they write an instruction and are read as its values,
or they are refused for their defect, or some number cannot be worked out. -/
theorem parseOperands_cases (place : Place) (mnemonic : Mnemonic) {tokens : List Text}
    (unbroken : ∀ token ∈ tokens, token.dropFinalNewline = token) :
    (∃ written : Written, written.mnemonic = mnemonic ∧
        List.Forall₂ Spells tokens written.values ∧
        parseOperands mnemonic.definition place tokens =
          .ok (List.zipWith Value.operand tokens written.values)) ∨
      (∃ cause, OperandsDefect mnemonic tokens cause ∧
        parseOperands mnemonic.definition place tokens = .error (place.reject cause)) ∨
      ¬ (∀ pair ∈ mnemonic.operandKinds.zip tokens, Readable pair.1 pair.2) ∧
        ∃ count,
          parseOperands mnemonic.definition place tokens = .error (.tooManyDigits count) := by
  by_cases same : tokens.length = mnemonic.operandKinds.length
  · have same' : tokens.length = mnemonic.definition.arity := same
    have known : ∀ kind ∈ mnemonic.operandKinds, ∀ name, kind ≠ .unknown name :=
      fun _ operand => Mnemonic.ne_unknown_of_mem_operandKinds operand
    simp only [parseOperands, if_pos same']
    rcases parseTokens_cases place known same unbroken with
      ⟨values, kinds, spells, read⟩ | ⟨cause, defect, failed⟩ | ⟨unread, failed⟩
    · obtain ⟨written, rfl, rfl⟩ := Written.exists_written kinds
      exact .inl ⟨written, rfl, spells, read⟩
    · exact .inr (.inl ⟨cause, .token same defect, failed⟩)
    · refine .inr (.inr ⟨fun readable => unread ?_, failed⟩)
      exact List.forall₂_iff_zip.mpr ⟨same.symm, fun {kind token} pair => readable _ pair⟩
  · exact .inr (.inl ⟨_, .count same, if_neg same⟩)

/-! ### Numbers that are read -/

/-- A token that is read could be worked out. With the lemmas above it follows that the limit on
digits is the only way in which a token that spells a value can fail. -/
theorem readable_of_parseOperand {place : Place} {kind : OperandKind} {token : Text}
    {operand : Operand} (read : parseOperand place kind token = .ok operand)
    (unbroken : token.dropFinalNewline = token) : Readable kind token := by
  have known (name : String) : kind ≠ .unknown name := by
    rintro rfl
    cases read
  rcases spells_or_tokenDefect known token with ⟨value, rfl, spells⟩ | ⟨cause, defect⟩
  · rw [parseOperand_of_spells place spells unbroken] at read
    by_contra unread
    rw [if_neg unread] at read
    cases read
  · rcases parseOperand_of_tokenDefect place defect unbroken with refused | ⟨-, refused⟩
    · rw [refused] at read
      cases read
    · rw [refused] at read
      cases read

theorem readable_of_parseTokens {place : Place} {kinds : List OperandKind} {tokens : List Text}
    {operands : List Operand} (read : parseTokens place kinds tokens = .ok operands)
    (unbroken : ∀ token ∈ tokens, token.dropFinalNewline = token) :
    ∀ pair ∈ kinds.zip tokens, Readable pair.1 pair.2 := by
  induction kinds generalizing tokens operands with
  | nil => exact nofun
  | cons kind kinds ih =>
      cases tokens with
      | nil => exact nofun
      | cons token tokens =>
          rw [List.forall_mem_cons] at unbroken
          rw [parseTokens] at read
          cases first : parseOperand place kind token with
          | error failure =>
              rw [first] at read
              cases read
          | ok operand =>
              cases rest : parseTokens place kinds tokens with
              | error failure =>
                  rw [first, rest] at read
                  cases read
              | ok operands =>
                  rw [List.zip_cons_cons, List.forall_mem_cons]
                  exact ⟨readable_of_parseOperand first unbroken.1, ih rest unbroken.2⟩

/-- The operands of an instruction that are read could all be worked out. -/
theorem readable_of_parseOperands {place : Place} {mnemonic : Mnemonic} {tokens : List Text}
    {operands : List Operand} (read : parseOperands mnemonic.definition place tokens = .ok operands)
    (unbroken : ∀ token ∈ tokens, token.dropFinalNewline = token) :
    ∀ pair ∈ mnemonic.operandKinds.zip tokens, Readable pair.1 pair.2 := by
  rw [parseOperands] at read
  split at read
  · exact readable_of_parseTokens read unbroken
  · cases read

end ByteMachine
