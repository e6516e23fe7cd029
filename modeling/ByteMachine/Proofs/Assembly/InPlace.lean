import ByteMachine.Assembler
import ByteMachine.Proofs.Assembly.Result

/-!
# Passes in place

An assembly can be told in two ways. Told as functions, a pass collects what becomes of the lines
and hands it over at its end. Told as it is done, there is one context that the pass changes line
by line: the site of a branch is noted while its line is encoded, the bytes are emitted behind
that, the entry of the listing comes last, and every check stands somewhere in between. What is
done to the context before a check fails is not taken back.

Here the second way is written down as `Work` on a state, and it comes to the first one. So there
is no check that comes too late: a line that is refused has not touched the context yet, and
everything done by then belongs to the lines before.

## Main results

* `encodeInPlace_on`: a line that is refused leaves the context as it was.
* `firstPassInPlace_on`, `secondPassInPlace_on`: the passes in place are the passes.
* `Assembler.assembleInPlace_on`: an assembler in place is the assembler.
-/

namespace ByteMachine

/-- **Work** in place: something done to a state that may fail on the way. The state is kept when it
fails, as far as it was changed. -/
abbrev Work (σ α : Type) : Type := ExceptT Failure (StateM σ) α

namespace Work

variable {σ α β : Type}

/-- What comes of work **on** a state: its result, and the state that it leaves, whether it fails or
not. -/
def on (work : Work σ α) (state : σ) : Except Failure α × σ :=
  StateT.run (ExceptT.run work) state

/-- Work behind other work is not done if that fails, and the state stays as the other has left
it. -/
theorem on_bind (work : Work σ α) (next : α → Work σ β) (state : σ) :
    on (work >>= next) state =
      match work.on state with
      | (.ok value, left) => (next value).on left
      | (.error failure, left) => (.error failure, left) := by
  unfold on ExceptT.run StateT.run
  simp only [bind, ExceptT.bind, ExceptT.mk, StateT.bind, ExceptT.bindCont]
  cases work state with
  | mk result left => cases result <;> rfl

theorem on_get (state : σ) : on (get : Work σ σ) state = (.ok state, state) :=
  rfl

theorem on_modify (change : σ → σ) (state : σ) :
    on (modify change : Work σ Unit) state = (.ok (), change state) :=
  rfl

/-- A result that does not look at the state does nothing to it, whether it is a failure or not. -/
theorem on_lift (result : Except Failure α) (state : σ) :
    on (liftM result : Work σ α) state = (result, state) := by
  cases result <;> rfl

end Work

open Work

/-! ### The passes -/

namespace Context

/-- Appends the **bytes of operands** to those of a line, and remembers the label met last. -/
def appendOperands (place : Place) (bytes : List UInt8) (target : Option Label) :
    List Operand → Work Context (List UInt8 × Option Label)
  | [] => return (bytes, target)
  | .register index _ :: operands => appendOperands place (bytes ++ [index]) target operands
  | .immediate value _ :: operands => appendOperands place (bytes ++ [value]) target operands
  | .label name :: operands => do
    let label ← (← get).findLabel name place
    if (← get).profile.encodesTargets then
      let byte ← targetByte label place
      appendOperands place (bytes ++ [byte]) (some label) operands
    else appendOperands place bytes (some label) operands

/-- Encodes a line **in place**. The site of a branch is noted right away, its bytes are
returned. -/
def encodeInPlace (line : Line) : Work Context (List UInt8) := do
  match line.statement.mnemonic?.bind Mnemonic.ofName? with
  | none => throw (line.place.reject (.unknownMnemonic line.statement.mnemonic?))
  | some mnemonic =>
    let operands ← parseOperands mnemonic.definition line.place line.statement.tokens
    let (bytes, target) ← appendOperands line.place [mnemonic.opcode] none operands
    if let some label := target then
      modify fun context => { context with sites := context.sites ++
        [⟨label.name, context.program.length + bytes.length, line.place.lineNum⟩] }
    return bytes

/-- Declares the labels of lines in place, the first of which stands at `address`. One context is
changed line by line, and a failure leaves what was done before it. -/
def declareInPlace (address : Nat) : List Line → Work Context Nat
  | [] => return address
  | line :: lines => do
    match line.statement with
    | .blank => declareInPlace address lines
    | .label name =>
      set (← (← get).addLabel name address line.place)
      declareInPlace address lines
    | .instruction _ _ => declareInPlace (address + (← get).sizeOf line.statement) lines

/-- Emits lines in place, the first of which stands at `address` for the labels. One context is
changed line by line, and a failure leaves what was done before it. -/
def emitInPlace (address : Nat) : List Line → Work Context Unit
  | [] => return
  | line :: lines => do
    match line.statement with
    | .blank => emitInPlace address lines
    | .label name =>
      (← get).checkLabel address name line.place
      emitInPlace address lines
    | .instruction _ _ =>
      let offset := (← get).program.length
      let bytes ← encodeInPlace line
      modify (·.emit bytes)
      modify fun context =>
        { context with listing := context.listing ++ [⟨line.place, offset, bytes⟩] }
      emitInPlace (address + (← get).sizeOf line.statement) lines

/-- The first pass in place: labels are declared one by one, until one cannot be. -/
def firstPassInPlace (lines : List Line) : Work Context Nat :=
  declareInPlace 0 lines

/-- The second pass in place: lines are emitted one by one, until one cannot be. -/
def secondPassInPlace (lines : List Line) : Work Context (List UInt8) := do
  emitInPlace 0 lines
  return (← get).program

variable {context : Context}

/-- Appending operands only looks at the context, and has the bytes and the label that encoding them
has. -/
theorem appendOperands_on (place : Place) (bytes : List UInt8) (target : Option Label)
    (operands : List Operand) :
    (appendOperands place bytes target operands).on context =
      ((context.encodeOperands place operands).map fun encoded =>
        (bytes ++ encoded.1, encoded.2.or target), context) := by
  -- Here bytes are appended on the way in and there on the way out, so what is there already is
  -- free.
  induction operands generalizing bytes target with
  | nil => simp only [encodeOperands, Except.map, List.append_nil, Option.none_or]; rfl
  | cons operand operands ih =>
      cases operand with
      | register index token | immediate value token =>
          rw [appendOperands, encodeOperands, ih]
          cases context.encodeOperands place operands with
          | error failure => rfl
          | ok encoded => simp [Except.map, bind, Except.bind, pure, Except.pure]
      | label name =>
          rw [appendOperands, encodeOperands, on_bind, on_get]
          simp only [on_bind, on_lift]
          cases context.findLabel name place with
          | error failure => rfl
          | ok label =>
              by_cases carries : context.profile.encodesTargets = true
              · simp only [on_get, if_pos carries, on_bind, on_lift]
                simp only [bind, Except.bind]
                cases targetByte label place with
                | error failure => rfl
                | ok byte =>
                    simp only [ih]
                    cases context.encodeOperands place operands with
                    | error failure => rfl
                    | ok encoded => simp [Except.map, pure, Except.pure]
              · simp only [on_get, if_neg carries, ih]
                cases context.encodeOperands place operands with
                | error failure => rfl
                | ok encoded => simp [Except.map, bind, Except.bind, pure, Except.pure]

/-- A line that is **refused** in place leaves the context as it was. A line that is not has its
site noted and nothing else. -/
theorem encodeInPlace_on (line : Line) :
    (encodeInPlace line).on context =
      match context.encodeNext line with
      | .ok (noted, bytes) => (.ok bytes, noted)
      | .error failure => (.error failure, context) := by
  rw [encodeInPlace, encodeNext, encodeLine]
  cases line.statement.mnemonic?.bind Mnemonic.ofName? with
  | none => rfl
  | some mnemonic =>
      simp only [on_bind, on_lift]
      cases parseOperands mnemonic.definition line.place line.statement.tokens with
      | error failure => rfl
      | ok operands =>
          simp only [appendOperands_on, bind, Except.bind]
          cases context.encodeOperands line.place operands with
          | error failure => rfl
          | ok encoded =>
              obtain ⟨bytes, target⟩ := encoded
              cases target with
              | none =>
                  simp only [Except.map, pure, Except.pure, Option.map_none, Option.toList_none,
                    List.append_nil]
                  rfl
              | some label => rfl

/-- A line is encoded alike, whatever has been taken into the context: encoding looks at the profile
and the label table only. -/
theorem encodeLine_extend (made : List Encoded) (offset : Nat) (line : Line) :
    (context.extend made).encodeLine offset line = context.encodeLine offset line := by
  have operands (place : Place) (operands : List Operand) :
      (context.extend made).encodeOperands place operands =
        context.encodeOperands place operands := by
    induction operands with
    | nil => rfl
    | cons operand operands ih =>
        cases operand with
        | register _ _ | immediate _ _ => rw [encodeOperands, ih, encodeOperands]
        | label _ =>
            rw [encodeOperands, ih, encodeOperands]
            rfl
  simp only [encodeLine, operands]

/-- Lines are encoded alike, whatever has been taken into the context before. -/
theorem encodeLines_extend (made : List Encoded) (offset address : Nat) (lines : List Line) :
    (context.extend made).encodeLines offset address lines =
      context.encodeLines offset address lines := by
  induction lines generalizing offset address with
  | nil => rfl
  | cons line lines ih =>
      rw [encodeLines, encodeLines]
      simp only [ih, encodeLine_extend]
      rfl

/-- An encoded line stands at the offset at which it is encoded, in the place of the line. -/
theorem entry_of_encodeLine {offset : Nat} {line : Line} {encoded : Encoded}
    (read : context.encodeLine offset line = .ok encoded) :
    encoded.entry = ⟨line.place, offset, encoded.entry.bytes⟩ := by
  rw [encodeLine] at read
  cases found : line.statement.mnemonic?.bind Mnemonic.ofName? with
  | none =>
      rw [found] at read
      cases read
  | some mnemonic =>
      simp only [found, bind, Except.bind] at read
      split at read
      · cases read
      · split at read
        · cases read
        · cases read
          rfl

@[simp] theorem extend_nil : context.extend [] = context := by
  simp [extend]

/-- What is taken in one line after the other might as well be taken in at once. -/
@[simp] theorem extend_extend (made more : List Encoded) :
    (context.extend made).extend more = context.extend (made ++ more) := by
  simp [extend]

/-- Emitting lines in place takes in what the second pass collects, up to the line where it
fails. -/
theorem emitInPlace_on (address : Nat) (lines : List Line) :
    (emitInPlace address lines).on context =
      let encoded := context.encodeLines context.program.length address lines
      (encoded.2, context.extend encoded.1) := by
  -- Every line emitted makes another context, which encodes the lines behind it as this one does.
  induction lines generalizing context address with
  | nil => exact congrArg (Prod.mk _) extend_nil.symm
  | cons line lines ih =>
      rw [emitInPlace, encodeLines]
      cases stated : line.statement with
      | blank => exact ih address
      | label name =>
          simp only [on_bind, on_get, on_lift]
          cases context.checkLabel address name line.place with
          | error failure => exact congrArg (Prod.mk _) extend_nil.symm
          | ok _ => exact ih address
      | instruction word tokens =>
          simp only [on_bind, on_get, on_modify, encodeInPlace_on, encodeNext]
          cases read : context.encodeLine context.program.length line with
          | error failure => exact congrArg (Prod.mk _) extend_nil.symm
          | ok encoded =>
              have taken : context.extend [encoded] =
                  { context with
                    sites := context.sites ++ encoded.site.toList
                    program := context.program ++ encoded.entry.bytes
                    listing := context.listing ++
                      [⟨line.place, context.program.length, encoded.entry.bytes⟩] } := by
                rw [← entry_of_encodeLine read]
                cases site : encoded.site <;> simp [extend, site]
              have behind : (context.extend [encoded]).program.length =
                  context.program.length + encoded.entry.bytes.length := by
                simp [extend]
              have rest := @ih (context.extend [encoded])
                (address + context.sizeOf (.instruction word tokens))
              simp only [encodeLines_extend, extend_extend] at rest
              rw [behind, taken] at rest
              exact rest

/-- Declaring labels in place places them, up to the line where that fails. -/
theorem declareInPlace_on (address : Nat) (lines : List Line) :
    (declareInPlace address lines).on context =
      let placed := context.placeLabels address lines
      (placed.2, placed.1) := by
  induction lines generalizing context address with
  | nil => rfl
  | cons line lines ih =>
      rw [declareInPlace, placeLabels]
      cases line.statement with
      | blank => exact ih address
      | label name =>
          simp only [on_bind, on_get, on_lift]
          cases context.addLabel name address line.place with
          | error failure => rfl
          | ok extended => exact @ih extended address
      | instruction word tokens => exact ih _

/-- The **first pass** in place is the first pass, in what it leaves and in how it ends. So nothing
is lost in a model that returns the context at the end. -/
theorem firstPassInPlace_on (lines : List Line) :
    (firstPassInPlace lines).on context =
      ((context.firstPass lines).result, (context.firstPass lines).context) := by
  obtain ⟨left, result⟩ := firstPass_eq context lines
  rw [firstPassInPlace, declareInPlace_on, left, result]

/-- The **second pass** in place is the second pass, in what it leaves and in how it ends, also
where it stops on a line in the middle. -/
theorem secondPassInPlace_on (lines : List Line) :
    (secondPassInPlace lines).on context =
      ((context.secondPass lines).result, (context.secondPass lines).context) := by
  rw [secondPassInPlace, on_bind, emitInPlace_on, secondPass]
  rcases context.encodeLines context.program.length 0 lines with ⟨encoded, ⟨⟩ | ⟨⟩⟩ <;> rfl

end Context

/-! ### The assembler -/

/-- An assembly **in place**, on an assembler that may have a context already. The context of the
last assembly is given up first; the new one is kept when both passes are through. -/
def Assembler.assembleInPlace (source : Text) : Work Assembler (List UInt8) := do
  modify fun assembler => { assembler with context := none }
  let assembler ← get
  let lines ← readSource source
  let passes : Work Context (List UInt8) := do
    let _ ← Context.firstPassInPlace lines
    Context.secondPassInPlace lines
  let (result, context) :=
    passes.on { profile := assembler.profile, maxLabels := assembler.maxLabels }
  let _ ← result
  modify fun assembler => { assembler with context := some context }
  return context.program

/-- An **assembler** in place is the assembler: it forgets its last run first, and remembers the new
one only if that succeeds. -/
theorem Assembler.assembleInPlace_on (assembler : Assembler) (source : Text) :
    (assembleInPlace source).on assembler =
      ((assembler.run source).2.result.map Context.program, (assembler.run source).1) := by
  rw [assembleInPlace, run, assemble]
  simp only [on_bind, on_modify, on_get, on_lift, Context.firstPassInPlace_on]
  cases readSource source with
  | error failure => rfl
  | ok lines =>
      simp only [assembleLines]
      -- From here on it does not matter what the passes do, only how they end.
      generalize Context.firstPass _ lines = first
      obtain ⟨placed, log, ⟨failure⟩ | ⟨address⟩⟩ := first
      · rfl
      · simp only [Context.secondPassInPlace_on]
        generalize placed.secondPass lines = second
        obtain ⟨context, further, ⟨failure⟩ | ⟨program⟩⟩ := second
        · rfl
        · rfl

end ByteMachine
