import ByteMachine.Proofs.Assembly.Emission
import ByteMachine.Proofs.Assembly.InPlace
import ByteMachine.Proofs.Source.Rejecting

/-!
# Passes that fail midway

A pass may be run on any context: on one whose labels are set by hand, on one that holds a program
already, on one that an earlier pass has left half done. So nothing is assumed of the context
here. A pass that fails has kept the work on the lines in front of the line it fails on, all of
it, and it has kept nothing of that line.

What the second pass does with lines that it gets through is the relation `Through`: it meets every
label at the address recorded for it, and it encodes every instruction behind the bytes of those
before. Address and offset are two counters. The address starts anew with each pass, the offset goes
on behind the program that is there, and under fixed sizing they do not even move alike.

## Main results

* `through_or_failsOn`: the second pass gets through all lines, or it fails on the first line that
  it does not get through.
* `placeLabels_cases`: the same for the first pass.
* `passes_keep_front`: what is left behind by a pass that fails, and by one that does not.
-/

namespace ByteMachine.Context

/-- The second pass gets **through** lines. The first of them stands at `offset` of the program
and at `address` for the labels, and `made` is what is made of them. -/
inductive Through (context : Context) : Nat → Nat → List Line → List Encoded → Prop
  | nil {offset address : Nat} : Through context offset address [] []
  | blank {offset address : Nat} {line : Line} {lines : List Line} {made : List Encoded} :
      line.statement = .blank → Through context offset address lines made →
      Through context offset address (line :: lines) made
  | label {offset address : Nat} {line : Line} {lines : List Line} {made : List Encoded}
      {name : Text} {label : Label} :
      line.statement = .label name → context.label? name = some label → label.address = address →
      Through context offset address lines made →
      Through context offset address (line :: lines) made
  | instruction {offset address : Nat} {line : Line} {lines : List Line} {made : List Encoded}
      {word : Text} {tokens : List Text} {encoded : Encoded} :
      line.statement = .instruction word tokens → context.encodeLine offset line = .ok encoded →
      Through context (offset + encoded.entry.bytes.length)
        (address + line.statement.size context.profile) lines made →
      Through context offset address (line :: lines) (encoded :: made)

/-- The second pass **fails on** a line, which stands at `offset` in the program and at `address`
for the labels. -/
inductive FailsOn (context : Context) (offset address : Nat) (line : Line) : Failure → Prop
  | unplaced {name : Text} : line.statement = .label name → context.label? name = none →
      FailsOn context offset address line (.unplacedLabel name)
  | moved {name : Text} {label : Label} : line.statement = .label name →
      context.label? name = some label → label.address ≠ address →
      FailsOn context offset address line
        (line.place.reject (.labelMoved name label.address address))
  | refused {failure : Failure} : line.statement.isInstruction = true →
      context.encodeLine offset line = .error failure →
      FailsOn context offset address line failure

/-- The **contributions** of lines: one for each instruction line, in order, encoded where the
bytes of those before it end. -/
inductive Contributes (context : Context) : Nat → List Line → List Encoded → Prop
  | nil {offset : Nat} : Contributes context offset [] []
  | other {offset : Nat} {line : Line} {lines : List Line} {made : List Encoded} :
      line.statement.isInstruction = false → Contributes context offset lines made →
      Contributes context offset (line :: lines) made
  | instruction {offset : Nat} {line : Line} {lines : List Line} {encoded : Encoded}
      {made : List Encoded} :
      line.statement.isInstruction = true → context.encodeLine offset line = .ok encoded →
      Contributes context (offset + encoded.entry.bytes.length) lines made →
      Contributes context offset (line :: lines) (encoded :: made)

/-- How far a pass walks over lines: the sizes of the instruction lines, together. -/
def walk (context : Context) (lines : List Line) : Nat :=
  (instructionLines lines).foldr (fun line behind => context.sizeOf line.statement + behind) 0

/-- Every label that is declared by a line is **recorded** where a pass over the lines before
ends. -/
def Records (context : Context) (lines : List Line) : Prop :=
  ∀ front line back name, lines = front ++ line :: back → line.statement = .label name →
    ∃ label, context.label? name = some label ∧ label.address = context.walk front

/-- The bytes of encoded lines, one behind the other. -/
def bytesOf (made : List Encoded) : List UInt8 :=
  made.flatMap fun encoded => encoded.entry.bytes

variable {context : Context} {offset address : Nat} {lines front back : List Line} {line : Line}
  {made more : List Encoded} {failure : Failure}

/-- A pass walks over the extent of the lines, under the profile of the context. -/
theorem walk_eq_extent (context : Context) (lines : List Line) :
    context.walk lines = extent context.profile (lines.map Line.statement) := by
  induction lines with
  | nil => rfl
  | cons line lines ih =>
      rw [List.map_cons, extent, ← ih, walk, walk]
      cases stated : line.statement with
      | blank | label _ =>
          have plain : ¬ line.statement.isInstruction = true := by
            simp [stated, Statement.isInstruction]
          rw [instructionLines_cons_of_not_isInstruction lines plain]
          exact (Nat.zero_add _).symm
      | instruction word tokens =>
          rw [instructionLines_cons_of_isInstruction lines (stated ▸ rfl), List.foldr_cons, stated,
            sizeOf_instruction]

/-! ### The second pass -/

/-- Checking a label goes well exactly if it is recorded at that address. -/
theorem checkLabel_eq_ok_iff {name : Text} {place : Place} :
    context.checkLabel address name place = .ok () ↔
      ∃ label, context.label? name = some label ∧ label.address = address := by
  rw [checkLabel]
  cases context.label? name with
  | none => simp
  | some label => by_cases here : label.address = address <;> simp [here]

/-- A label that is checked and refused is a line that the pass fails on. -/
theorem failsOn_of_checkLabel {name : Text} (declares : line.statement = .label name)
    (refused : context.checkLabel address name line.place = .error failure) :
    context.FailsOn offset address line failure := by
  rw [checkLabel] at refused
  cases found : context.label? name with
  | none =>
      rw [found] at refused
      cases refused
      exact .unplaced declares found
  | some label =>
      simp only [found] at refused
      split at refused
      · cases refused
      · rename_i elsewhere
        cases refused
        exact .moved declares found elsewhere

/-- Lines that the pass gets through are encoded, whatever stands behind them, and then it goes on
with the rest. -/
theorem Through.encodeLines_append (through : context.Through offset address front made)
    (back : List Line) :
    context.encodeLines offset address (front ++ back) =
      let rest := context.encodeLines (offset + (bytesOf made).length)
        (address + extent context.profile (front.map Line.statement)) back
      (made ++ rest.1, rest.2) := by
  induction through with
  | nil => rfl
  | blank stated _ ih =>
      rw [List.cons_append, encodeLines]
      simpa [stated, extent, Statement.size] using ih
  | label stated found here _ ih =>
      rw [List.cons_append, encodeLines]
      simpa [stated, checkLabel_eq_ok_iff.mpr ⟨_, found, here⟩, extent, Statement.size] using ih
  | instruction stated read _ ih =>
      rw [List.cons_append, encodeLines]
      simp only [stated, read, sizeOf_instruction]
      rw [stated] at ih
      simp only [ih, bytesOf, List.flatMap_cons, List.length_append, List.map_cons, stated, extent,
        Nat.add_assoc, List.cons_append]

theorem Through.encodeLines_eq (through : context.Through offset address lines made) :
    context.encodeLines offset address lines = (made, .ok ()) := by
  simpa [encodeLines] using through.encodeLines_append []

/-- A line that the pass fails on ends it, and nothing is made of that line. -/
theorem FailsOn.encodeLines_cons (fails : context.FailsOn offset address line failure)
    (back : List Line) :
    context.encodeLines offset address (line :: back) = ([], .error failure) := by
  rw [encodeLines]
  cases fails with
  | unplaced stated absent => simp [stated, checkLabel, absent]
  | moved stated found elsewhere => simp [stated, checkLabel, found, elsewhere]
  | refused instruction refused =>
      obtain ⟨word, tokens, stated⟩ := Statement.exists_of_isInstruction instruction
      simp only [stated, refused]

/-- The second pass gets through **all lines**, or it gets through those in front of a line and
fails on that one. -/
theorem through_or_failsOn (context : Context) (offset address : Nat) (lines : List Line) :
    (∃ made, context.Through offset address lines made) ∨
      ∃ front line back made failure, lines = front ++ line :: back ∧
        context.Through offset address front made ∧
        context.FailsOn (offset + (bytesOf made).length)
          (address + extent context.profile (front.map Line.statement)) line failure := by
  induction lines generalizing offset address with
  | nil => exact .inl ⟨[], .nil⟩
  | cons line lines ih =>
      cases stated : line.statement with
      | blank =>
          rcases ih offset address with ⟨made, through⟩ |
            ⟨front, bad, back, made, failure, rfl, through, fails⟩
          · exact .inl ⟨made, .blank stated through⟩
          · refine .inr ⟨line :: front, bad, back, made, failure, rfl, .blank stated through, ?_⟩
            simpa [extent, stated, Statement.size] using fails
      | label name =>
          cases met : context.checkLabel address name line.place with
          | error failure =>
              exact .inr ⟨[], line, lines, [], failure, rfl, .nil, failsOn_of_checkLabel stated met⟩
          | ok _ =>
              obtain ⟨label, found, here⟩ := checkLabel_eq_ok_iff.mp met
              rcases ih offset address with ⟨made, through⟩ |
                ⟨front, bad, back, made, failure, rfl, through, fails⟩
              · exact .inl ⟨made, .label stated found here through⟩
              · refine .inr ⟨line :: front, bad, back, made, failure, rfl,
                  .label stated found here through, ?_⟩
                simpa [extent, stated, Statement.size] using fails
      | instruction word tokens =>
          cases read : context.encodeLine offset line with
          | error failure =>
              exact .inr ⟨[], line, lines, [], failure, rfl, .nil, .refused (stated ▸ rfl) read⟩
          | ok encoded =>
              rcases ih (offset + encoded.entry.bytes.length)
                  (address + line.statement.size context.profile) with ⟨made, through⟩ |
                ⟨front, bad, back, made, failure, rfl, through, fails⟩
              · exact .inl ⟨encoded :: made, .instruction stated read through⟩
              · refine .inr ⟨line :: front, bad, back, encoded :: made, failure, rfl,
                  .instruction stated read through, ?_⟩
                simpa [extent, bytesOf, Nat.add_assoc] using fails

/-- What is made of lines that the pass gets through is what they contribute, each at its
offset. -/
theorem Through.contributes (through : context.Through offset address lines made) :
    context.Contributes offset lines made := by
  induction through with
  | nil => exact .nil
  | blank stated _ ih => exact .other (stated ▸ rfl) ih
  | label stated _ _ _ ih => exact .other (stated ▸ rfl) ih
  | instruction stated read _ ih => exact .instruction (stated ▸ rfl) read ih

/-- The labels of lines that the pass gets through stand where they are recorded. -/
theorem Through.recorded (through : context.Through offset address lines made) {name : Text}
    (split : lines = front ++ line :: back) (declares : line.statement = .label name) :
    ∃ label, context.label? name = some label ∧
      label.address = (address + extent context.profile (front.map Line.statement) : Nat) := by
  induction through generalizing front with
  | nil => cases front <;> cases split
  | blank stated _ ih =>
      cases front with
      | nil =>
          cases split
          rw [stated] at declares
          cases declares
      | cons head front =>
          cases split
          simpa [extent, stated, Statement.size] using ih rfl
  | label stated found here _ ih =>
      cases front with
      | nil =>
          cases split
          rw [stated] at declares
          cases declares
          exact ⟨_, found, here⟩
      | cons head front =>
          cases split
          simpa [extent, stated, Statement.size] using ih rfl
  | instruction stated _ _ ih =>
      cases front with
      | nil =>
          cases split
          rw [stated] at declares
          cases declares
      | cons head front =>
          cases split
          simpa [extent, Nat.add_assoc] using ih rfl

/-- A second pass that gets through its lines returns the program, extended by what they
contribute. -/
theorem Through.secondPass_eq (through : context.Through context.program.length 0 lines made) :
    (context.secondPass lines).context = context.extend made ∧
      (context.secondPass lines).result = .ok (context.extend made).program := by
  obtain ⟨left, result⟩ := ByteMachine.secondPass_eq context lines
  rw [through.encodeLines_eq] at left result
  exact ⟨left, result⟩

/-- A second pass that fails on a line keeps what the lines in front contribute, and nothing
else. -/
theorem Through.secondPass_of_failsOn
    (through : context.Through context.program.length 0 front made)
    (fails : context.FailsOn (context.program.length + (bytesOf made).length)
      (extent context.profile (front.map Line.statement)) line failure) (back : List Line) :
    (context.secondPass (front ++ line :: back)).context = context.extend made ∧
      (context.secondPass (front ++ line :: back)).result = .error failure := by
  obtain ⟨left, result⟩ := ByteMachine.secondPass_eq context (front ++ line :: back)
  simp only [through.encodeLines_append, Nat.zero_add, fails.encodeLines_cons,
    List.append_nil] at left result
  exact ⟨left, result⟩

theorem exists_through_of_secondPass {program : List UInt8}
    (done : (context.secondPass lines).result = .ok program) :
    ∃ made, context.Through context.program.length 0 lines made := by
  rcases through_or_failsOn context context.program.length 0 lines with all |
    ⟨front, line, back, made, failure, rfl, through, fails⟩
  · exact all
  · rw [Nat.zero_add] at fails
    rw [(through.secondPass_of_failsOn fails back).2] at done
    cases done

/-! ### The first pass -/

/-- A label that is declared goes to the end of the table, and nothing else changes. -/
theorem eq_of_addLabel {name : Text} {address : Int} {place : Place} {extended : Context}
    (added : context.addLabel name address place = .ok extended) :
    extended =
      { context with labels := context.labels ++ [⟨name, address, place.lineNum⟩] } := by
  rw [addLabel] at added
  split at added
  · cases added
  · split at added
    · cases added
    · cases added
      rfl

/-- The first pass places **all labels**, or it places those in front of a line whose label cannot
be declared then. -/
theorem placeLabels_cases (context : Context) (address : Nat) (lines : List Line) :
    context.placeLabels address lines =
        ({ context with labels := context.labels ++ placements context.profile address lines },
          .ok (address + extent context.profile (lines.map Line.statement))) ∨
      ∃ front line back name failure, lines = front ++ line :: back ∧
        line.statement = .label name ∧
        let placed := { context with
          labels := context.labels ++ placements context.profile address front }
        let reached := address + extent context.profile (front.map Line.statement)
        context.placeLabels address front = (placed, .ok reached) ∧
          placed.addLabel name reached line.place = .error failure ∧
          context.placeLabels address lines = (placed, .error failure) := by
  induction lines generalizing context address with
  | nil => exact .inl (by simp [placeLabels, placements, extent])
  | cons line lines ih =>
      cases stated : line.statement with
      | blank =>
          rcases ih context address with all | ⟨front, bad, back, name, failure, rfl, rest⟩
          · refine .inl ?_
            rw [placeLabels]
            simpa [stated, placements, extent, Statement.label?, Statement.size] using all
          · refine .inr ⟨line :: front, bad, back, name, failure, rfl, rest.1, ?_⟩
            simpa [placeLabels, stated, placements, extent, Statement.label?, Statement.size]
              using rest.2
      | label name =>
          cases added : context.addLabel name address line.place with
          | error failure =>
              refine .inr ⟨[], line, lines, name, failure, rfl, stated, ?_⟩
              simp [placeLabels, stated, placements, extent, added]
          | ok extended =>
              obtain rfl := eq_of_addLabel added
              rcases ih { context with
                  labels := context.labels ++ [⟨name, address, line.place.lineNum⟩] } address with
                all | ⟨front, bad, back, other, failure, rfl, rest⟩
              · refine .inl ?_
                rw [placeLabels]
                simpa [stated, added, placements, extent, Statement.label?, Statement.size]
                  using all
              · refine .inr ⟨line :: front, bad, back, other, failure, rfl, rest.1, ?_⟩
                simpa [placeLabels, stated, added, placements, extent, Statement.label?,
                  Statement.size] using rest.2
      | instruction word tokens =>
          rcases ih context (address + line.statement.size context.profile) with all |
            ⟨front, bad, back, name, failure, rfl, rest⟩
          · refine .inl ?_
            rw [placeLabels]
            simpa [stated, placements, extent, Statement.label?, sizeOf_instruction,
              Nat.add_assoc] using all
          · refine .inr ⟨line :: front, bad, back, name, failure, rfl, rest.1, ?_⟩
            simpa [placeLabels, stated, placements, extent, Statement.label?, sizeOf_instruction,
              Nat.add_assoc] using rest.2

/-! ### Both passes -/

/-- A label that is recorded elsewhere **stops** the second pass where it is met. The pass is
rejected for that if the message can be written. Otherwise one of the integers in it is too long,
and the failure says no more than that. -/
theorem secondPass_of_moved {context : Context} {front : List Line} {line : Line} {name : Text}
    {label : Label} {program : List UInt8} (back : List Line)
    (declares : line.statement = .label name) (found : context.label? name = some label)
    (elsewhere : label.address ≠ context.walk front)
    (done : (context.secondPass front).result = .ok program) :
    let cause := SourceError.Cause.labelMoved name label.address (context.walk front)
    (∀ n ∈ [line.place.lineNum, label.address, (context.walk front : Int)],
        Text.isShort n = true) ∧
      (context.secondPass (front ++ line :: back)).result =
        .error (.rejected ⟨cause, line.place⟩) ∨
    (∃ n ∈ [line.place.lineNum, label.address, (context.walk front : Int)],
        ¬ Text.isShort n = true) ∧
      (context.secondPass (front ++ line :: back)).result = .error (.unwritable {}) := by
  intro cause
  obtain ⟨made, through⟩ := exists_through_of_secondPass done
  have fails : context.FailsOn (context.program.length + (bytesOf made).length)
      (context.walk front) line (line.place.reject cause) :=
    .moved declares found elsewhere
  rw [walk_eq_extent] at fails
  obtain ⟨-, result⟩ := through.secondPass_of_failsOn fails back
  obtain ⟨written, rejected⟩ | ⟨silent, unwritable⟩ := line.place.reject_cases cause
  · have short := SourceError.writable_iff.mp written
    exact .inl ⟨short, result.trans (congrArg Except.error rejected)⟩
  · have long := List.all_eq_false.mp silent
    exact .inr ⟨long, result.trans (congrArg Except.error unwritable)⟩

/-- A pass that **fails midway** keeps exactly the work in front of the line it fails on, on
whatever context it is run. A second pass that fails has taken in what the lines in front
contribute, and has left the label table alone; one that returns has met every label where it is
recorded. A label that is recorded elsewhere is an internal error, unless the number of the line or
one of the two addresses, which the message shows, has too many digits to be written; then the
failure names no line. A line that is refused has not touched the context. A first pass that fails
has declared the labels of the lines in front. And all of this is so as well where the passes change
one context line by line. -/
theorem passes_keep_front (context : Context) (lines : List Line) :
    (∀ failure, (context.secondPass lines).result = .error failure →
      ∃ front line back made, lines = front ++ line :: back ∧
        context.FailsOn (context.program.length + (bytesOf made).length) (context.walk front) line
          failure ∧
        context.Contributes context.program.length front made ∧
        (context.secondPass front).result = .ok (context.program ++ bytesOf made) ∧
        (context.secondPass lines).context = { context with
          sites := context.sites ++ made.filterMap Encoded.site
          program := context.program ++ bytesOf made
          listing := context.listing ++ made.map Encoded.entry }) ∧
    (∀ program, (context.secondPass lines).result = .ok program →
      context.Records lines ∧ ∃ made, context.Contributes context.program.length lines made ∧
        program = context.program ++ bytesOf made ∧
        (context.secondPass lines).context = context.extend made) ∧
    (∀ front line back name label program, lines = front ++ line :: back →
      line.statement = .label name → context.label? name = some label →
      label.address ≠ context.walk front → (context.secondPass front).result = .ok program →
      let cause := SourceError.Cause.labelMoved name label.address (context.walk front)
      cause.kind = .internal ∧
        ((∀ n ∈ [line.place.lineNum, label.address, (context.walk front : Int)],
            Text.isShort n = true) ∧
          (context.secondPass lines).result = .error (.rejected ⟨cause, line.place⟩) ∨
        (∃ n ∈ [line.place.lineNum, label.address, (context.walk front : Int)],
            ¬ Text.isShort n = true) ∧
          (context.secondPass lines).result = .error (.unwritable {}))) ∧
    (∀ line failure, context.encodeNext line = .error failure →
      (encodeInPlace line).on context = (.error failure, context)) ∧
    (∀ failure, (context.firstPass lines).result = .error failure →
      ∃ front line back name, lines = front ++ line :: back ∧ line.statement = .label name ∧
        let placed := { context with
          labels := context.labels ++ placements context.profile 0 front }
        (context.firstPass front).result = .ok (context.walk front) ∧
          placed.addLabel name (context.walk front) line.place = .error failure ∧
          (context.firstPass lines).context = placed) ∧
    (firstPassInPlace lines).on context =
      ((context.firstPass lines).result, (context.firstPass lines).context) ∧
    (secondPassInPlace lines).on context =
      ((context.secondPass lines).result, (context.secondPass lines).context) := by
  refine ⟨?_, ?_, ?_, ?_, ?_, firstPassInPlace_on lines, secondPassInPlace_on lines⟩
  · intro failure failed
    rcases through_or_failsOn context context.program.length 0 lines with ⟨made, through⟩ |
      ⟨front, line, back, made, other, rfl, through, fails⟩
    · rw [through.secondPass_eq.2] at failed
      cases failed
    · rw [Nat.zero_add] at fails
      obtain ⟨left, result⟩ := through.secondPass_of_failsOn fails back
      rw [result] at failed
      cases failed
      exact ⟨front, line, back, made, rfl, walk_eq_extent context front ▸ fails,
        through.contributes, through.secondPass_eq.2, left⟩
  · intro program done
    obtain ⟨made, through⟩ := exists_through_of_secondPass done
    rw [through.secondPass_eq.2] at done
    cases done
    refine ⟨?_, made, through.contributes, rfl, through.secondPass_eq.1⟩
    intro front line back name split declares
    obtain ⟨label, found, here⟩ := through.recorded split declares
    exact ⟨label, found, by rw [here, Nat.zero_add, walk_eq_extent]⟩
  · intro front line back name label program split declares found elsewhere done
    subst split
    exact ⟨rfl, secondPass_of_moved back declares found elsewhere done⟩
  · intro line failure refused
    rw [encodeInPlace_on, refused]
  · intro failure failed
    rw [(firstPass_eq context lines).2] at failed
    rw [(firstPass_eq context lines).1]
    rcases placeLabels_cases context 0 lines with placed |
      ⟨front, line, back, name, other, rfl, declares, before, refused, placed⟩
    · rw [placed] at failed
      cases failed
    · rw [placed] at failed ⊢
      cases failed
      simp only [Nat.zero_add, ← walk_eq_extent] at before refused
      exact ⟨front, line, back, name, rfl, declares,
        (firstPass_eq context front).2.trans (congrArg Prod.snd before), refused, rfl⟩

/-- A program that is there already, and a label set by hand that lies too far to be carried:
the pass over three lines fails on the last and keeps the first. -/
theorem passes_keep_front_of_farLabel :
    let far : Label := ⟨"FAR".toList, 300, 9⟩
    let context : Context :=
      { profile := .resolved, labels := [far, ⟨"HERE".toList, 2, 8⟩], program := [0xFF] }
    let lines : List Line :=
      [ ⟨⟨1, "DPR R1".toList⟩, .instruction "DPR".toList ["R1".toList], none⟩,
        ⟨⟨2, "HERE:".toList⟩, .label "HERE".toList, none⟩,
        ⟨⟨3, "JMP FAR".toList⟩, .instruction "JMP".toList ["FAR".toList], none⟩ ]
    let failure := Place.reject ⟨3, "JMP FAR".toList⟩ (.addressTooLarge "FAR".toList 300)
    (context.secondPass lines).result = .error failure ∧
      (context.secondPass lines).context.program = [0xFF, 0x07, 0x01] ∧
      ∃ front line back made, lines = front ++ line :: back ∧
        context.Contributes 1 front made ∧
        (context.secondPass lines).context = context.extend made := by
  intro far context lines failure
  have failed : (context.secondPass lines).result = .error failure := by decide
  obtain ⟨front, line, back, made, split, -, contributes, -, left⟩ :=
    (passes_keep_front context lines).1 failure failed
  exact ⟨failed, by decide, front, line, back, made, split, contributes, left⟩

/-- A label set by hand at an address of too many digits is no internal error when the second
pass meets it. -/
theorem not_forall_internal :
    ¬ ∀ (context : Context) (line : Line) (name : Text) (label : Label) (failure : Failure),
      line.statement = .label name → context.label? name = some label → label.address ≠ 0 →
        (context.secondPass [line]).result = .error failure →
          ∃ error, failure = .rejected error ∧ error.kind = .internal := by
  intro all
  let label : Label := ⟨"A".toList, Text.firstLong, 1⟩
  let context : Context := { profile := .resolved, labels := [label] }
  let line : Line := ⟨⟨1, "A:".toList⟩, .label "A".toList, none⟩
  have far : label.address ≠ 0 := by
    have large := Text.lt_natAbs_firstLong
    intro zero
    rw [show Text.firstLong = 0 from zero] at large
    exact absurd large (Nat.not_lt_zero _)
  have front : context.Through 0 0 [] [] := .nil
  have fails : context.FailsOn 0 0 line
      (line.place.reject (.labelMoved label.name label.address 0)) := .moved rfl rfl far
  obtain ⟨-, result⟩ := front.secondPass_of_failsOn fails []
  have silent :
      (⟨.labelMoved label.name label.address 0, line.place⟩ : SourceError).writable = false :=
    SourceError.writable_eq_false (List.mem_cons_of_mem _ List.mem_cons_self)
      Text.not_isShort_firstLong
  rw [Place.reject_of_not_writable silent] at result
  obtain ⟨error, same, -⟩ := all context line _ label _ rfl rfl far result
  cases same

end ByteMachine.Context
