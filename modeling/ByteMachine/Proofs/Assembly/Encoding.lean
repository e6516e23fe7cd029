import ByteMachine.Assembly.Pass
import ByteMachine.Instruction.Decode
import ByteMachine.Proofs.Assembly.Layout
import ByteMachine.Proofs.Source.Written

/-!
# Encoding written instructions

The second pass against written instructions. A written instruction has an encoding under any
choice of a byte for each label, and encoding the line that writes it gives that encoding for
the bytes of the label table, unless something is wrong with the label that it goes to.

## Main results

* `length_encode`: the length of an encoding is that of the instruction table.
* `encodeOperands_of_written`, `encodeOperands_of_targetDefect`: encoding operands.
* `encodeLine_of_lineDefect`, `encodeLine_cases`: encoding one line.
-/

namespace ByteMachine

/-! ### The encoding of a written instruction -/

namespace Written

/-- The **encoding** of a written instruction, given the byte of each label and whether it is
carried in the image. -/
def encode (targets : Bool) (byteOf : Text → UInt8) : Written → Instruction
  | exit => .exit
  | store register value => .store register value
  | load register value => .load register value
  | add target source value => .add target source value
  | sub target source value => .sub target source value
  | branchIf register value label =>
    .branchIf register value (if targets then some (byteOf label) else none)
  | jump label => .jump (if targets then some (byteOf label) else none)
  | display register => .display register

variable (targets : Bool) (byteOf : Text → UInt8) (written : Written)

/-- The encoding is of the same row of the instruction table as the written instruction. -/
@[simp] theorem mnemonic_encode : (written.encode targets byteOf).mnemonic = written.mnemonic := by
  cases written <;> rfl

/-- The encoding carries its target exactly if the profile says that it should. -/
theorem fits_encode : (written.encode targets byteOf).Fits targets := by
  cases written <;> cases targets <;> trivial

/-- The length of the encoding does not depend on the labels: it is that of the table. So the first
pass can work it out before any label has its address. -/
theorem length_encode (profile : Profile) :
    (written.encode profile.encodesTargets byteOf).length = written.mnemonic.length profile := by
  rw [Mnemonic.length_eq, Mnemonic.encodedKinds]
  cases written <;> cases profile.encodesTargets <;> rfl

end Written

/-! ### Targets -/

namespace Context

/-- The **byte** of a label of the table, as far as its address is one. Where the label is fine, it
is. -/
def byteOf (context : Context) (name : Text) : UInt8 :=
  match context.label? name with
  | some label => UInt8.ofNat label.address.toNat
  | none => 0

end Context

/-- What is wrong with a **label** that a branch goes to: it is not in the table, or it should be
carried and its address is no byte. -/
inductive TargetDefect (context : Context) (place : Place) (name : Text) : Failure → Prop
  | notFound : context.label? name = none →
      TargetDefect context place name (place.reject (.labelNotFound name))
  | tooLarge {label : Label} : context.label? name = some label →
      context.profile.encodesTargets = true → 0xFF < label.address →
      TargetDefect context place name (place.reject (.addressTooLarge label.name label.address))
  | negative {label : Label} : context.label? name = some label →
      context.profile.encodesTargets = true → label.address < 0 →
      TargetDefect context place name .negativeAddress

variable {context : Context} {place : Place}

/-- A label that nothing is wrong with is encoded as its byte, if it is carried, and otherwise as
nothing. -/
theorem encodeOperands_label {name : Text}
    (clean : ∀ failure, ¬ TargetDefect context place name failure) :
    context.encodeOperands place [.label name] =
      .ok (if context.profile.encodesTargets then [context.byteOf name] else [],
        context.label? name) := by
  cases found : context.label? name with
  | none => exact absurd (.notFound found) (clean _)
  | some label =>
      simp only [Context.encodeOperands, Context.findLabel, found, bind, Except.bind]
      by_cases carries : context.profile.encodesTargets = true
      · have small : ¬ 0xFF < label.address := fun large => clean _ (.tooLarge found carries large)
        have positive : ¬ label.address < 0 := fun below => clean _ (.negative found carries below)
        have byte : Context.targetByte label place = .ok (context.byteOf name) := by
          rw [Context.targetByte, if_neg small, if_neg positive, Context.byteOf, found]
        simp only [if_pos carries, byte]
        rfl
      · simp only [if_neg carries]
        rfl

theorem encodeOperands_label_of_targetDefect {name : Text} {failure : Failure}
    (defect : TargetDefect context place name failure) :
    context.encodeOperands place [.label name] = .error failure := by
  cases defect with
  | notFound found =>
      simp only [Context.encodeOperands, Context.findLabel, found, bind, Except.bind]
  | @tooLarge label found carries large =>
      have byte : Context.targetByte label place =
          .error (place.reject (.addressTooLarge label.name label.address)) := by
        rw [Context.targetByte, if_pos large]
      simp only [Context.encodeOperands, Context.findLabel, found, bind, Except.bind,
        if_pos carries, byte]
      rfl
  | @negative label found carries below =>
      have byte : Context.targetByte label place = .error .negativeAddress := by
        rw [Context.targetByte, if_neg (by omega), if_pos below]
      simp only [Context.encodeOperands, Context.findLabel, found, bind, Except.bind,
        if_pos carries, byte]
      rfl

/-- The operands of a written instruction are encoded if nothing is wrong with its label, to the
bytes of the encoding and with the label as the one that is marked. -/
theorem encodeOperands_of_written {written : Written} {tokens : List Text}
    (same : tokens.length = written.values.length)
    (clean : ∀ name, written.label? = some name →
      ∀ failure, ¬ TargetDefect context place name failure) :
    context.encodeOperands place (List.zipWith Value.operand tokens written.values) =
      .ok ((written.encode context.profile.encodesTargets context.byteOf).operands,
        written.label?.bind context.label?) :=
  match written, tokens, same with
  | .exit, [], _ => rfl
  | .store _ _, [_, _], _ => rfl
  | .load _ _, [_, _], _ => rfl
  | .add _ _ _, [_, _, _], _ => rfl
  | .sub _ _ _, [_, _, _], _ => rfl
  | .display _, [_], _ => rfl
  | .jump name, [_], _ => by
      rw [Written.values, List.zipWith_cons_cons, Value.operand, List.zipWith_nil_left,
        encodeOperands_label (clean name rfl)]
      cases context.profile.encodesTargets <;> rfl
  | .branchIf register value name, [first, second, third], _ => by
      have label := encodeOperands_label (clean name rfl)
      rw [Written.values, List.zipWith_cons_cons, Value.operand, Context.encodeOperands,
        List.zipWith_cons_cons, Value.operand, Context.encodeOperands, List.zipWith_cons_cons,
        Value.operand, List.zipWith_nil_left, label]
      cases context.profile.encodesTargets <;> rfl

/-- The operands of a written instruction are refused for what is wrong with its label, since
nothing else can be wrong with them. -/
theorem encodeOperands_of_targetDefect {written : Written} {tokens : List Text} {name : Text}
    {failure : Failure} (same : tokens.length = written.values.length)
    (goes : written.label? = some name) (defect : TargetDefect context place name failure) :
    context.encodeOperands place (List.zipWith Value.operand tokens written.values) =
      .error failure :=
  match written, tokens, same, goes with
  | .jump _, [_], _, rfl => by
      rw [Written.values, List.zipWith_cons_cons, Value.operand, List.zipWith_nil_left,
        encodeOperands_label_of_targetDefect defect]
  | .branchIf _ _ _, [_, _, _], _, rfl => by
      have label := encodeOperands_label_of_targetDefect defect
      rw [Written.values, List.zipWith_cons_cons, Value.operand, Context.encodeOperands,
        List.zipWith_cons_cons, Value.operand, Context.encodeOperands, List.zipWith_cons_cons,
        Value.operand, List.zipWith_nil_left, label]
      rfl

/-! ### One line -/

/-- The row of the instruction table that is found under a word has that word as its name. -/
theorem Mnemonic.name_of_ofName? {word : Text} {mnemonic : Mnemonic}
    (found : Mnemonic.ofName? word = some mnemonic) : mnemonic.name = word := by
  rw [Mnemonic.ofName?] at found
  simpa using List.find?_some found

/-- The numbers among the operands of a statement can be **worked out**: they do not have too many
digits. -/
def Statement.Readable (statement : Statement) : Prop :=
  ∀ (mnemonic : Mnemonic) (tokens : List Text), statement = .instruction mnemonic.name tokens →
    ∀ pair ∈ mnemonic.operandKinds.zip tokens, ByteMachine.Readable pair.1 pair.2

/-- The numbers of a statement with short tokens can be worked out, since a token has no more digits
than characters. -/
theorem Statement.readable_of_short {statement : Statement}
    (short : ∀ token ∈ statement.tokens, token.length ≤ maxDecimalDigits) :
    statement.Readable := by
  rintro mnemonic tokens rfl pair inside
  exact .inr (Nat.le_trans List.countP_le_length (short _ (List.of_mem_zip inside).2))

/-- What is wrong with an **instruction line**: its word, its operands, or the label that it
goes to. -/
inductive LineDefect (context : Context) (line : Line) : Failure → Prop
  | unknown {word : Text} {tokens : List Text} : line.statement = .instruction word tokens →
      Mnemonic.ofName? word = none →
      LineDefect context line (line.place.reject (.unknownMnemonic (some word)))
  | operands {mnemonic : Mnemonic} {tokens : List Text} {cause : SourceError.Cause} :
      line.statement = .instruction mnemonic.name tokens →
      OperandsDefect mnemonic tokens cause → LineDefect context line (line.place.reject cause)
  | target {written : Written} {name : Text} {failure : Failure} :
      line.statement.Writes written → written.label? = some name →
      TargetDefect context line.place name failure → LineDefect context line failure

/-- A line that **writes** an instruction whose label is fine. Its numbers can be worked out, and so
it is encoded. -/
def Encodes (context : Context) (line : Line) (written : Written) : Prop :=
  line.statement.Writes written ∧ ∀ name, written.label? = some name →
    ∀ failure, ¬ TargetDefect context line.place name failure

/-- The **encoded line** of a written instruction, its bytes at `offset` of the program. -/
def Written.encodedAt (context : Context) (offset : Nat) (place : Place) (written : Written) :
    Encoded :=
  let bytes := (written.encode context.profile.encodesTargets context.byteOf).bytes
  ⟨⟨place, offset, bytes⟩,
    written.label?.map fun name => ⟨name, offset + bytes.length, place.lineNum⟩⟩

variable {line : Line} {offset : Nat}

theorem Context.name_of_label? {name : Text} {label : Label}
    (found : context.label? name = some label) : label.name = name := by
  rw [Context.label?] at found
  simpa using List.find?_some found

/-- A line whose word is known is encoded by reading its operands and encoding them. -/
theorem encodeLine_eq {mnemonic : Mnemonic} {tokens : List Text}
    (writes : line.statement = .instruction mnemonic.name tokens) :
    context.encodeLine offset line =
      (parseOperands mnemonic.definition line.place tokens).bind fun operands =>
        (context.encodeOperands line.place operands).bind fun (bytes, target) =>
          .ok ⟨⟨line.place, offset, mnemonic.opcode :: bytes⟩, target.map fun label =>
            ⟨label.name, offset + (mnemonic.opcode :: bytes).length, line.place.lineNum⟩⟩ := by
  rw [Context.encodeLine, writes, Statement.mnemonic?, Option.bind_some, Mnemonic.ofName?_name]
  rfl

/-- A line is encoded once its operands are read, unless something is wrong with its label. -/
theorem encodeLine_of_parseOperands {written : Written} {tokens : List Text}
    (writes : line.statement = .instruction written.mnemonic.name tokens)
    (same : tokens.length = written.values.length)
    (read : parseOperands written.mnemonic.definition line.place tokens =
      .ok (List.zipWith Value.operand tokens written.values))
    (clean : ∀ name, written.label? = some name →
      ∀ failure, ¬ TargetDefect context line.place name failure) :
    context.encodeLine offset line = .ok (written.encodedAt context offset line.place) := by
  have site : ∀ f : Text → BranchSite,
      (written.label?.bind context.label?).map (fun label => f label.name) =
        written.label?.map f := by
    intro f
    cases goes : written.label? with
    | none => rfl
    | some name =>
        cases found : context.label? name with
        | none => exact absurd (.notFound found) (clean name goes _)
        | some label => simp [found, Context.name_of_label? found]
  rw [encodeLine_eq writes, read, Except.bind, encodeOperands_of_written same clean, Except.bind,
    Written.encodedAt, Instruction.bytes, Written.mnemonic_encode]
  exact congrArg (fun site => Except.ok (⟨_, site⟩ : Encoded)) (site fun name => ⟨name, _, _⟩)

/-- The tokens of a line **do not end in a line feed**. This is so for every line of a program
text. -/
def Line.Unbroken (line : Line) : Prop :=
  ∀ word tokens, line.statement = .instruction word tokens →
    ∀ token ∈ tokens, token.dropFinalNewline = token

/-- The operands of a line that writes an instruction are read, if its numbers can be worked
out. -/
theorem parseOperands_of_readable {written : Written} {tokens : List Text}
    (writes : line.statement = .instruction written.mnemonic.name tokens)
    (spells : List.Forall₂ Spells tokens written.values) (readable : line.statement.Readable)
    (unbroken : line.Unbroken) :
    parseOperands written.mnemonic.definition line.place tokens =
      .ok (List.zipWith Value.operand tokens written.values) := by
  have same : written.mnemonic.operandKinds.length = tokens.length := by
    rw [spells.length_eq, ← written.map_kind_values, List.length_map]
  exact parseOperands_of_spells spells
    (List.forall₂_iff_zip.mpr ⟨same, fun pair => readable _ _ writes _ pair⟩) (unbroken _ _ writes)

/-- A line with a defect is refused for it, if its numbers can be worked out. What is wrong with a
line is told by one defect, the first that the assembler comes to. -/
theorem encodeLine_of_lineDefect {failure : Failure} (defect : LineDefect context line failure)
    (readable : line.statement.Readable) (unbroken : line.Unbroken) :
    context.encodeLine offset line = .error failure := by
  cases defect with
  | unknown writes unknown =>
      rw [Context.encodeLine, writes, Statement.mnemonic?, Option.bind_some, unknown]
  | operands writes defect =>
      rw [encodeLine_eq writes, parseOperands_of_operandsDefect defect (readable _ _ writes)
        (unbroken _ _ writes)]
      rfl
  | target spelled goes defect =>
      obtain ⟨tokens, writes, spells⟩ := spelled
      rw [encodeLine_eq writes, parseOperands_of_readable writes spells readable unbroken,
        Except.bind, encodeOperands_of_targetDefect spells.length_eq goes defect]
      rfl

/-- **Encoding an instruction line**, case by case: it writes an instruction and is encoded as
that, or it is refused for its defect, or some number cannot be worked out. -/
theorem encodeLine_cases (context : Context) (offset : Nat) {line : Line}
    (instruction : line.statement.isInstruction = true) (unbroken : line.Unbroken) :
    (∃ written, Encodes context line written ∧
        context.encodeLine offset line = .ok (written.encodedAt context offset line.place)) ∨
      (∃ failure, LineDefect context line failure ∧
        context.encodeLine offset line = .error failure) ∨
      ¬ line.statement.Readable ∧
        ∃ count, context.encodeLine offset line = .error (.tooManyDigits count) := by
  obtain ⟨word, tokens, writes⟩ := Statement.exists_of_isInstruction instruction
  cases found : Mnemonic.ofName? word with
  | none =>
      refine .inr (.inl ⟨_, .unknown writes found, ?_⟩)
      rw [Context.encodeLine, writes, Statement.mnemonic?, Option.bind_some, found]
  | some mnemonic =>
      obtain rfl := Mnemonic.name_of_ofName? found
      rcases parseOperands_cases line.place mnemonic (unbroken _ _ writes) with
        ⟨written, rfl, spells, read⟩ | ⟨cause, defect, refused⟩ | ⟨unread, count, refused⟩
      · by_cases bad : ∃ name failure, written.label? = some name ∧
            TargetDefect context line.place name failure
        · obtain ⟨name, failure, goes, defect⟩ := bad
          refine .inr (.inl ⟨failure, .target ⟨tokens, writes, spells⟩ goes defect, ?_⟩)
          rw [encodeLine_eq writes, read, Except.bind,
            encodeOperands_of_targetDefect spells.length_eq goes defect]
          rfl
        · have clean : ∀ name, written.label? = some name →
              ∀ failure, ¬ TargetDefect context line.place name failure :=
            fun name goes failure defect => bad ⟨name, failure, goes, defect⟩
          exact .inl ⟨written, ⟨⟨tokens, writes, spells⟩, clean⟩,
            encodeLine_of_parseOperands writes spells.length_eq read clean⟩
      · refine .inr (.inl ⟨_, .operands writes defect, ?_⟩)
        rw [encodeLine_eq writes, refused]
        rfl
      · refine .inr (.inr ⟨fun readable => unread (readable _ _ writes), count, ?_⟩)
        rw [encodeLine_eq writes, refused]
        rfl

end ByteMachine
