import ByteMachine.Proofs.Assembly.Result
import ByteMachine.Proofs.Source.Rejecting

/-!
# Which programs are assembled

Acceptance, said about the statements of a program text alone: `Acceptable` lists what must
hold of them, `FirstDefect` says which line is reported otherwise and for what. The two speak
about addresses through the layout and about operands through the grammar, never about a pass.

A defect of an earlier phase hides every defect of a later one, wherever the two stand. Within
a phase the first line counts.

## Main results

* `freeOf_encodingDefect_iff`: a program without encoding defects writes instructions whose
  labels are declared and, where they are carried, fit in a byte.
* `exists_defect_of_error`: every error of an assembly, by what is wrong with one line.
* `assemble_eq_ok_iff_acceptable`: the programs that are assembled, and the error of any other.
-/

namespace ByteMachine

/-- What is wrong with a **label** that a branch goes to: no statement declares it, or it should
be carried and lies too high. -/
inductive LabelDefect (profile : Profile) (source : List Statement) (name : Text) :
    SourceError.Cause → Prop
  | undeclared : .label name ∉ source → LabelDefect profile source name (.labelNotFound name)
  | tooHigh : .label name ∈ source → profile.encodesTargets = true →
      0xFF < addressOf profile source name →
      LabelDefect profile source name (.addressTooLarge name (addressOf profile source name))

/-- What is wrong with an **instruction** of a program: its word, its operands, or the label
that it goes to. -/
inductive EncodingDefect (profile : Profile) (source : List Statement) :
    Statement → SourceError.Cause → Prop
  | unknown {word : Text} {tokens : List Text} : Mnemonic.ofName? word = none →
      EncodingDefect profile source (.instruction word tokens) (.unknownMnemonic (some word))
  | operands {mnemonic : Mnemonic} {tokens : List Text} {cause : SourceError.Cause} :
      OperandsDefect mnemonic tokens cause →
      EncodingDefect profile source (.instruction mnemonic.name tokens) cause
  | target {statement : Statement} {written : Written} {name : Text}
      {cause : SourceError.Cause} : statement.Writes written → written.label? = some name →
      LabelDefect profile source name cause → EncodingDefect profile source statement cause

/-- The **first defect** of a program: the first naming defect; where there is none, the first
placing defect; and where there is none of these either, the first encoding defect. -/
inductive FirstDefect (profile : Profile) (maxLabels : Int) (source : List Statement) (i : Nat)
    (cause : SourceError.Cause) : Prop
  | naming : FirstAt (fun _ => NamingDefect) source i cause →
      FirstDefect profile maxLabels source i cause
  | placing : FreeOf (fun _ => NamingDefect) source →
      FirstAt (PlacingDefect maxLabels) source i cause →
      FirstDefect profile maxLabels source i cause
  | encoding : FreeOf (fun _ => NamingDefect) source → FreeOf (PlacingDefect maxLabels) source →
      FirstAt (fun _ => EncodingDefect profile source) source i cause →
      FirstDefect profile maxLabels source i cause

/-- What is wrong with the statement at a position of a program, in **whichever phase** it
counts. -/
def DefectAt (profile : Profile) (maxLabels : Int) (source : List Statement) (i : Nat)
    (cause : SourceError.Cause) : Prop :=
  ∃ statement, source[i]? = some statement ∧
    (NamingDefect statement cause ∨ PlacingDefect maxLabels (source.take i) statement cause ∨
      EncodingDefect profile source statement cause)

/-- What must hold of the statements of a program that is **assembled**. Each field belongs to one
phase of the assembly, and none of them mentions a pass. -/
structure Acceptable (profile : Profile) (maxLabels : Int) (source : List Statement) : Prop where
  /-- Labels are declared under label names. -/
  named : ∀ name, .label name ∈ source → IsLabelName name
  /-- No name is declared twice. -/
  distinct : (declaredNames source).Nodup
  /-- There are not more labels than there may be. -/
  room : (declaredNames source).length ≤ max maxLabels 0
  /-- Every instruction is written as one of the table, with operands that spell values. -/
  written : ∀ word tokens, .instruction word tokens ∈ source →
    ∃ written, (Statement.instruction word tokens).Writes written
  /-- The labels that branches go to are declared somewhere. -/
  declared : ∀ statement ∈ source, ∀ written, statement.Writes written →
    ∀ name, written.label? = some name → .label name ∈ source
  /-- Where the image carries them they fit in a byte. -/
  near : profile.encodesTargets = true → ∀ statement ∈ source, ∀ written,
    statement.Writes written → ∀ name, written.label? = some name →
      addressOf profile source name ≤ 0xFF

variable {profile : Profile} {maxLabels maxProgramSize : Int} {source : List Statement}

/-! ### Defects that depend on one statement -/

/-- Where a defect depends on one statement alone, a program is free of it exactly if no statement
of it has any, wherever it stands. -/
theorem freeOf_const_iff {α : Type} {defect : α → SourceError.Cause → Prop} {parts : List α} :
    FreeOf (fun _ => defect) parts ↔ ∀ part ∈ parts, ∀ cause, ¬ defect part cause := by
  constructor
  · intro free part inside
    obtain ⟨i, found⟩ := List.mem_iff_getElem?.mp inside
    exact free i part found
  · exact fun clean i part found => clean part (List.mem_of_getElem? found)

/-- A statement with such a defect is the first with one if it stands behind statements without. -/
theorem firstAt_const {defect : Statement → SourceError.Cause → Prop} {front back : List Statement}
    {statement : Statement} {cause : SourceError.Cause}
    (clean : ∀ other ∈ front, ∀ cause, ¬ defect other cause) (bad : defect statement cause) :
    FirstAt (fun _ => defect) (front ++ statement :: back) front.length cause := by
  refine ⟨⟨statement, ?_, bad⟩, fun j before other found => ?_⟩
  · rw [List.getElem?_append_right (Nat.le_refl _), Nat.sub_self]
    rfl
  · rw [List.getElem?_append_left before] at found
    exact clean other (List.mem_of_getElem? found)

/-- A program is free of naming defects exactly if all declarations declare label names. -/
theorem freeOf_namingDefect_iff :
    FreeOf (fun _ => NamingDefect) source ↔ ∀ name, .label name ∈ source → IsLabelName name := by
  rw [freeOf_const_iff]
  constructor
  · exact fun clean name inside => not_namingDefect_label_iff.mp (clean _ inside)
  · rintro valid statement inside cause ⟨defect⟩
    exact (valid _ inside).not_nameDefect defect

/-- Nothing is wrong with a label exactly if it is declared and, where it is carried, fits
in a byte. -/
theorem not_labelDefect_iff {name : Text} :
    (∀ cause, ¬ LabelDefect profile source name cause) ↔
      .label name ∈ source ∧
        (profile.encodesTargets = true → addressOf profile source name ≤ 0xFF) := by
  constructor
  · intro clean
    have declared : .label name ∈ source :=
      Classical.byContradiction fun undeclared => clean _ (.undeclared undeclared)
    exact ⟨declared, fun carries =>
      Nat.not_lt.mp fun high => clean _ (.tooHigh declared carries high)⟩
  · rintro ⟨declared, low⟩ cause defect
    cases defect with
    | undeclared undeclared => exact undeclared declared
    | tooHigh _ carries high => exact absurd (low carries) (Nat.not_le.mpr high)

/-- No instruction has an **encoding defect** exactly if all of them are written and nothing is
wrong with the labels that they go to. -/
theorem freeOf_encodingDefect_iff :
    FreeOf (fun _ => EncodingDefect profile source) source ↔
      (∀ word tokens, .instruction word tokens ∈ source →
        ∃ written, (Statement.instruction word tokens).Writes written) ∧
      ∀ statement ∈ source, ∀ written, statement.Writes written →
        ∀ name, written.label? = some name → ∀ cause, ¬ LabelDefect profile source name cause := by
  rw [freeOf_const_iff]
  constructor
  · intro clean
    constructor
    · intro word tokens inside
      cases found : Mnemonic.ofName? word with
      | none => exact absurd (.unknown found) (clean _ inside _)
      | some mnemonic =>
          obtain rfl := Mnemonic.name_of_ofName? found
          rcases writes_or_operandsDefect mnemonic tokens with written | ⟨cause, defect⟩
          · exact written
          · exact absurd (.operands defect) (clean _ inside cause)
    · exact fun statement inside written writes name goes cause defect =>
        clean statement inside cause (.target writes goes defect)
  · rintro ⟨written, fine⟩ statement inside cause defect
    cases defect with
    | @unknown word tokens unknown =>
        obtain ⟨written, _, same, -⟩ := written word tokens inside
        rw [(Statement.instruction.inj same).1, Mnemonic.ofName?_name] at unknown
        cases unknown
    | operands defect =>
        obtain ⟨written, writes⟩ := written _ _ inside
        exact writes.not_operandsDefect defect
    | target writes goes defect => exact fine statement inside _ writes _ goes cause defect

/-! ### Acceptable programs -/

/-- A program is acceptable exactly if it is free of the defects of all three phases. -/
theorem acceptable_iff :
    Acceptable profile maxLabels source ↔
      FreeOf (fun _ => NamingDefect) source ∧ FreeOf (PlacingDefect maxLabels) source ∧
        FreeOf (fun _ => EncodingDefect profile source) source := by
  rw [freeOf_namingDefect_iff, freeOf_placingDefect_iff, freeOf_encodingDefect_iff]
  constructor
  · rintro ⟨named, distinct, room, written, declared, near⟩
    refine ⟨named, ⟨distinct, room⟩, written, ?_⟩
    exact fun statement inside written writes name goes => not_labelDefect_iff.mpr
      ⟨declared statement inside written writes name goes,
        fun carries => near carries statement inside written writes name goes⟩
  · rintro ⟨named, ⟨distinct, room⟩, written, fine⟩
    refine ⟨named, distinct, room, written, ?_, ?_⟩
    · exact fun statement inside written writes name goes =>
        (not_labelDefect_iff.mp (fine statement inside written writes name goes)).1
    · exact fun carries statement inside written writes name goes =>
        (not_labelDefect_iff.mp (fine statement inside written writes name goes)).2 carries

/-- A program is acceptable, or it has a first defect. The search for it goes through the phases in
their order. -/
theorem acceptable_or_firstDefect (profile : Profile) (maxLabels : Int)
    (source : List Statement) :
    Acceptable profile maxLabels source ∨
      ∃ i cause, FirstDefect profile maxLabels source i cause := by
  rcases freeOf_or_firstAt (fun _ => NamingDefect) source with named | ⟨i, cause, bad⟩
  · rcases freeOf_or_firstAt (PlacingDefect maxLabels) source with placed | ⟨i, cause, bad⟩
    · rcases freeOf_or_firstAt (fun _ => EncodingDefect profile source) source with
        encoded | ⟨i, cause, bad⟩
      · exact .inl (acceptable_iff.mpr ⟨named, placed, encoded⟩)
      · exact .inr ⟨i, cause, .encoding named placed bad⟩
    · exact .inr ⟨i, cause, .placing named bad⟩
  · exact .inr ⟨i, cause, .naming bad⟩

/-- The first defect of a program is a defect of the statement where it is found, whatever the
phase. -/
theorem FirstDefect.defectAt {i : Nat} {cause : SourceError.Cause}
    (bad : FirstDefect profile maxLabels source i cause) :
    DefectAt profile maxLabels source i cause := by
  cases bad with
  | naming bad => exact bad.1.imp fun _ => And.imp_right .inl
  | placing _ bad => exact bad.1.imp fun _ => And.imp_right fun defect => .inr (.inl defect)
  | encoding _ _ bad => exact bad.1.imp fun _ => And.imp_right fun defect => .inr (.inr defect)

/-! ### What messages show -/

/-- The message about a statement that is not placed shows the limit of labels or the number of
a line in front, if any integer beside the number of its own line. -/
theorem PlacingDefect.of_mem_numbers {before : List Statement} {statement : Statement}
    {cause : SourceError.Cause} (defect : PlacingDefect maxLabels before statement cause) {n : Int}
    (shown : n ∈ cause.numbers) :
    n = maxLabels ∨ ∃ number : Nat, n = number ∧ number ≤ before.length := by
  cases defect with
  | @duplicate name declared =>
      exact .inr ⟨_, List.mem_singleton.mp shown, length_beforeLabel_lt declared⟩
  | tooMany _ _ => exact .inl (List.mem_singleton.mp shown)

/-- The message about a statement that is not encoded shows the address of a label, if any
integer beside the number of its line. -/
theorem EncodingDefect.exists_of_mem_numbers {statement : Statement} {cause : SourceError.Cause}
    (defect : EncodingDefect profile source statement cause) {n : Int}
    (shown : n ∈ cause.numbers) : ∃ address : Nat, n = address ∧ address ≤ 4 * source.length := by
  cases defect with
  | unknown _ => cases shown
  | operands defect =>
      rw [defect.numbers_eq_nil] at shown
      cases shown
  | target _ _ defect =>
      cases defect with
      | undeclared _ => cases shown
      | tooHigh _ _ _ => exact ⟨_, List.mem_singleton.mp shown, addressOf_le profile source _⟩

namespace DefectAt

variable {i : Nat} {cause : SourceError.Cause} {text : Text}

/-- The error about a defect of a program shows the limit of labels, or integers that are at
most four times the number of statements: numbers of lines, and the address of a label. -/
theorem of_mem_numbers (bad : DefectAt profile maxLabels source i cause) {n : Int}
    (shown : n ∈ (⟨cause, ⟨i + 1, text⟩⟩ : SourceError).numbers) :
    n = maxLabels ∨ ∃ number : Nat, n = number ∧ number ≤ 4 * source.length := by
  obtain ⟨statement, stands, defect⟩ := bad
  have inside : i < source.length := (List.getElem?_eq_some_iff.mp stands).1
  obtain rfl | shown := List.mem_cons.mp shown
  · exact .inr ⟨i + 1, rfl, by omega⟩
  rcases defect with defect | defect | defect
  · cases defect with
    | name defect =>
        rw [defect.numbers_eq_nil] at shown
        cases shown
  · obtain rfl | ⟨number, rfl, bound⟩ := defect.of_mem_numbers shown
    · exact .inl rfl
    · have front := List.length_take_le i source
      exact .inr ⟨number, rfl, by omega⟩
  · exact .inr (defect.exists_of_mem_numbers shown)

/-- The message about a defect of a program can be written if the limit of labels can be, and
the program is not so long that some number of a line or some address could not be. -/
theorem writable (bad : DefectAt profile maxLabels source i cause)
    (short : Text.isShort maxLabels = true) (small : 4 * source.length < 10 ^ maxDecimalDigits) :
    (⟨cause, ⟨i + 1, text⟩⟩ : SourceError).writable = true := by
  rw [SourceError.writable_iff]
  intro n shown
  obtain rfl | ⟨number, rfl, bound⟩ := bad.of_mem_numbers shown
  · exact short
  · exact Text.isShort_of_lt (Nat.lt_of_le_of_lt bound small)

/-- The numbers of lines in the error about a defect go no further than the line itself: it points
back, or at nothing. -/
theorem lineNumber_bounds (bad : DefectAt profile maxLabels source i cause) :
    ∀ n ∈ (⟨cause, ⟨i + 1, text⟩⟩ : SourceError).lineNumbers, 0 ≤ n ∧ n ≤ i + 1 := by
  intro n shown
  obtain ⟨statement, -, defect⟩ := bad
  obtain rfl | back := List.mem_cons.mp shown
  · exact ⟨Int.natCast_nonneg (i + 1), Int.le_refl _⟩
  cases cause with
  | duplicateLabel name first =>
      cases List.mem_singleton.mp back
      rcases defect with naming | placing | encoding
      · cases naming with
        | name defect => cases defect
      · cases placing with
        | duplicate declared =>
            have before := length_beforeLabel_lt declared
            have front := List.length_take_le i source
            omega
      · cases encoding with
        | operands defect => cases defect.numbers_eq_nil
        | target _ _ defect => cases defect
  | _ => cases back

end DefectAt

/-! ### Defects of statements and of lines -/

variable {context : Context} {lines : List Line} {line : Line} {failure : Failure}

/-- What is wrong with a label that a line goes to, for a context with the table of the
layout. No label of that table lies below zero. -/
theorem targetDefect_iff {place : Place} {name : Text}
    (labels : context.labels = placements context.profile 0 lines) :
    TargetDefect context place name failure ↔
      ∃ cause, LabelDefect context.profile (lines.map Line.statement) name cause ∧
        failure = place.reject cause := by
  by_cases declared : .label name ∈ lines.map Line.statement
  · obtain ⟨first, -, looked⟩ := Context.label?_of_placements labels declared
    constructor
    · intro defect
      cases defect with
      | notFound found =>
          rw [looked] at found
          cases found
      | tooLarge found carries large =>
          rw [looked] at found
          cases found
          exact ⟨_, .tooHigh declared carries (Int.ofNat_lt.mp large), rfl⟩
      | negative found carries below =>
          rw [looked] at found
          cases found
          exact absurd below (Int.not_lt.mpr (Int.natCast_nonneg _))
    · rintro ⟨cause, defect, rfl⟩
      cases defect with
      | undeclared undeclared => exact absurd declared undeclared
      | tooHigh _ carries high => exact .tooLarge looked carries (Int.ofNat_lt.mpr high)
  · have looked := Context.label?_of_placements_eq_none labels declared
    constructor
    · intro defect
      cases defect with
      | notFound _ => exact ⟨_, .undeclared declared, rfl⟩
      | tooLarge found _ _ => rw [looked] at found; cases found
      | negative found _ _ => rw [looked] at found; cases found
    · rintro ⟨cause, defect, rfl⟩
      cases defect with
      | undeclared _ => exact .notFound looked
      | tooHigh inside _ _ => exact absurd inside declared

/-- What is wrong with a line is what is wrong with its statement, for a context with the
table of the layout. -/
theorem lineDefect_iff (labels : context.labels = placements context.profile 0 lines) :
    LineDefect context line failure ↔
      ∃ cause, EncodingDefect context.profile (lines.map Line.statement) line.statement cause ∧
        failure = line.place.reject cause := by
  constructor
  · intro defect
    cases defect with
    | unknown writes unknown => exact ⟨_, writes ▸ .unknown unknown, rfl⟩
    | operands writes defect => exact ⟨_, writes ▸ .operands defect, rfl⟩
    | target writes goes defect =>
        obtain ⟨cause, wrong, rfl⟩ := (targetDefect_iff labels).mp defect
        exact ⟨cause, .target writes goes wrong, rfl⟩
  · rintro ⟨cause, defect, rfl⟩
    generalize stated : line.statement = statement at defect
    cases defect with
    | unknown unknown => exact .unknown stated unknown
    | operands defect => exact .operands stated defect
    | target writes goes defect =>
        exact .target (stated ▸ writes) goes ((targetDefect_iff labels).mpr ⟨cause, defect, rfl⟩)

/-- What is wrong with a line of a program text is what is wrong with its statement in the program
as a whole. -/
theorem lineDefect_placing_iff {source : Text} :
    LineDefect (.placing profile maxLabels (sourceLines source)) line failure ↔
      ∃ cause, EncodingDefect profile (statements source) line.statement cause ∧
        failure = line.place.reject cause := by
  rw [← map_statement_sourceLines]
  exact lineDefect_iff rfl

/-! ### The outcome of an assembly -/

variable {source : Text}

/-- An acceptable program is assembled, if its numbers can be worked out. -/
theorem assemble_of_acceptable (readable : ∀ statement ∈ statements source, statement.Readable)
    (acceptable : Acceptable profile maxLabels (statements source)) :
    ∃ context, (assemble profile source maxLabels maxProgramSize).result = .ok context := by
  obtain ⟨named, placed, encoded⟩ := acceptable_iff.mp acceptable
  rcases assemble_cases profile maxProgramSize named placed with
    ⟨_, context, -, assembled⟩ | ⟨line, inside, failure, defect, -⟩ | ⟨⟨line, inside, unread⟩, -⟩
  · exact ⟨context, assembled⟩
  · obtain ⟨cause, defect, -⟩ := lineDefect_placing_iff.mp defect
    exact absurd defect (freeOf_const_iff.mp encoded _ (statement_mem_statements inside) cause)
  · exact absurd (readable _ (statement_mem_statements inside)) unread

/-- A program with an encoding defect and no defects of earlier phases is not assembled, for
the first encoding defect, if its numbers can be worked out. -/
theorem assemble_of_encodingDefect {i : Nat} {cause : SourceError.Cause}
    (readable : ∀ statement ∈ statements source, statement.Readable)
    (named : FreeOf (fun _ => NamingDefect) (statements source))
    (placed : FreeOf (PlacingDefect maxLabels) (statements source))
    (bad : FirstAt (fun _ => EncodingDefect profile (statements source)) (statements source) i
      cause) :
    ∃ text, (Text.lines source)[i]? = some text ∧
      (assemble profile source maxLabels maxProgramSize).result =
        .error (Place.reject ⟨i + 1, text⟩ cause) := by
  obtain ⟨⟨statement, found, defect⟩, earlier⟩ := bad
  rw [← map_statement_sourceLines, List.getElem?_map, Option.map_eq_some_iff] at found
  obtain ⟨line, found, rfl⟩ := found
  obtain ⟨text, stands, place⟩ := place_of_getElem?_sourceLines found
  have split : sourceLines source =
      (sourceLines source).take i ++ line :: (sourceLines source).drop (i + 1) := by
    obtain ⟨_, rfl⟩ := List.getElem?_eq_some_iff.mp found
    rw [List.getElem_cons_drop, List.take_append_drop]
  have clean : ∀ other ∈ (sourceLines source).take i, ∀ failure,
      ¬ LineDefect (.placing profile maxLabels (sourceLines source)) other failure := by
    intro other before failure wrong
    obtain ⟨cause, wrong, -⟩ := lineDefect_placing_iff.mp wrong
    obtain ⟨j, short, same⟩ := List.mem_take_iff_getElem.mp before
    refine earlier j (by omega) other.statement ?_ cause wrong
    rw [← map_statement_sourceLines, List.getElem?_map, ← same]
    exact congrArg _ (List.getElem?_eq_getElem _)
  have refused := @encodeLines_of_lineDefect (.placing profile maxLabels (sourceLines source)) []
    _ line 0 _ _ _ split (places_placing placed) (unbroken_sourceLines source)
    (fun other inside => readable _ (statement_mem_statements inside)) clean
    (lineDefect_placing_iff.mpr ⟨cause, defect, rfl⟩)
  refine ⟨text, stands, ?_⟩
  rw [assemble_of_placed named placed, ← place]
  exact congrArg (Except.map _) refused

/-- A program with a first defect is not assembled, for that defect, if its numbers can be
worked out. -/
theorem assemble_of_firstDefect {i : Nat} {cause : SourceError.Cause}
    (readable : ∀ statement ∈ statements source, statement.Readable)
    (bad : FirstDefect profile maxLabels (statements source) i cause) :
    ∃ text, (Text.lines source)[i]? = some text ∧
      (assemble profile source maxLabels maxProgramSize).result =
        .error (Place.reject ⟨i + 1, text⟩ cause) := by
  cases bad with
  | naming bad => exact assemble_of_namingDefect bad
  | placing named bad => exact assemble_of_placingDefect named bad
  | encoding named placed bad => exact assemble_of_encodingDefect readable named placed bad

/-- Every **error** of an assembly is told at the line of some statement that has a defect, or some
number of the text cannot be worked out. -/
theorem exists_defect_of_error
    (refused : (assemble profile source maxLabels maxProgramSize).result = .error failure) :
    (∃ (i : Nat) (text : Text) (cause : SourceError.Cause), (Text.lines source)[i]? = some text ∧
        DefectAt profile maxLabels (statements source) i cause ∧
        failure = Place.reject ⟨i + 1, text⟩ cause) ∨
      (∃ statement ∈ statements source, ¬ statement.Readable) ∧
        ∃ count, failure = .tooManyDigits count := by
  rcases freeOf_or_firstAt (fun _ => NamingDefect) (statements source) with named | ⟨i, cause, bad⟩
  · rcases freeOf_or_firstAt (PlacingDefect maxLabels) (statements source) with
      placed | ⟨i, cause, bad⟩
    · rcases assemble_cases profile maxProgramSize named placed with
        ⟨_, _, -, assembled⟩ | ⟨line, inside, other, defect, rejected⟩ |
        ⟨⟨line, inside, unread⟩, count, rejected⟩
      · rw [assembled] at refused
        cases refused
      · rw [rejected] at refused
        cases refused
        obtain ⟨cause, wrong, rfl⟩ := lineDefect_placing_iff.mp defect
        obtain ⟨i, found⟩ := List.mem_iff_getElem?.mp inside
        obtain ⟨text, stands, place⟩ := place_of_getElem?_sourceLines found
        have stated : (statements source)[i]? = some line.statement := by
          rw [← map_statement_sourceLines, List.getElem?_map, found]
          rfl
        exact .inl ⟨i, text, cause, stands, ⟨_, stated, .inr (.inr wrong)⟩, by rw [place]⟩
      · rw [rejected] at refused
        cases refused
        exact .inr ⟨⟨_, statement_mem_statements inside, unread⟩, count, rfl⟩
    · obtain ⟨text, stands, rejected⟩ :=
        @assemble_of_placingDefect profile _ maxProgramSize _ _ _ named bad
      rw [rejected] at refused
      cases refused
      exact .inl ⟨i, text, cause, stands, (FirstDefect.placing named bad).defectAt, rfl⟩
  · obtain ⟨text, stands, rejected⟩ :=
      @assemble_of_namingDefect profile maxLabels maxProgramSize _ _ _ bad
    rw [rejected] at refused
    cases refused
    exact .inl ⟨i, text, cause, stands, (FirstDefect.naming bad).defectAt, rfl⟩

/-- **Which programs are assembled**, and the error of any other, for program texts in which no
token at the place of a register or of an immediate value has too many digits. The acceptable
programs are assembled. Any other is rejected for its first defect, on the line of that; unless the
message would have to show a limit of labels, an address or the number of a line that has too many
digits to be written, and then the failure is one that names no line. That never happens under a
limit which can be written, in a program text that is not so long that some address could not be. -/
theorem assemble_eq_ok_iff_acceptable (profile : Profile) (source : Text)
    (maxLabels maxProgramSize : Int)
    (readable : ∀ statement ∈ statements source, statement.Readable) :
    ((∃ context, (assemble profile source maxLabels maxProgramSize).result = .ok context) ↔
        Acceptable profile maxLabels (statements source)) ∧
      (∀ failure, (assemble profile source maxLabels maxProgramSize).result = .error failure ↔
        ∃ i text cause, (Text.lines source)[i]? = some text ∧
          FirstDefect profile maxLabels (statements source) i cause ∧
          ((⟨cause, ⟨i + 1, text⟩⟩ : SourceError).writable = true ∧
              failure = .rejected ⟨cause, ⟨i + 1, text⟩⟩ ∨
            (⟨cause, ⟨i + 1, text⟩⟩ : SourceError).writable = false ∧
              failure = .unwritable {})) ∧
      (Text.isShort maxLabels = true → 4 * (Text.lines source).length < 10 ^ maxDecimalDigits →
        ∀ failure, (assemble profile source maxLabels maxProgramSize).result = .error failure ↔
          ∃ i text cause, (Text.lines source)[i]? = some text ∧
            FirstDefect profile maxLabels (statements source) i cause ∧
            failure = .rejected ⟨cause, ⟨i + 1, text⟩⟩) := by
  have errors (failure : Failure) :
      (assemble profile source maxLabels maxProgramSize).result = .error failure ↔
        ∃ i text cause, (Text.lines source)[i]? = some text ∧
          FirstDefect profile maxLabels (statements source) i cause ∧
          failure = Place.reject ⟨i + 1, text⟩ cause := by
    constructor
    · intro refused
      rcases acceptable_or_firstDefect profile maxLabels (statements source) with
        acceptable | ⟨i, cause, bad⟩
      · obtain ⟨context, assembled⟩ := assemble_of_acceptable readable acceptable
        rw [assembled] at refused
        cases refused
      · obtain ⟨text, stands, rejected⟩ := assemble_of_firstDefect readable bad
        exact ⟨i, text, cause, stands, bad, Except.error.inj (refused.symm.trans rejected)⟩
    · rintro ⟨i, text, cause, stands, bad, rfl⟩
      obtain ⟨other, found, rejected⟩ := assemble_of_firstDefect readable bad
      rw [stands] at found
      cases found
      exact rejected
  refine ⟨⟨?_, assemble_of_acceptable readable⟩, ?_, fun short small failure => ?_⟩
  · rintro ⟨context, assembled⟩
    rcases acceptable_or_firstDefect profile maxLabels (statements source) with
      acceptable | ⟨i, cause, bad⟩
    · exact acceptable
    · obtain ⟨text, -, rejected⟩ := assemble_of_firstDefect readable bad
      rw [assembled] at rejected
      cases rejected
  · simpa only [← Place.eq_reject_iff] using errors
  · rw [errors]
    refine exists_congr fun i => exists_congr fun text => exists_congr fun cause =>
      and_congr_right fun _ => and_congr_right fun bad => ?_
    have told : Place.reject ⟨i + 1, text⟩ cause = .rejected ⟨cause, ⟨i + 1, text⟩⟩ :=
      Place.reject_of_writable (bad.defectAt.writable short (by simpa [statements] using small))
    rw [told]

/-- A bad declaration on the last line hides an unknown instruction on the first: the phases come
before the lines. -/
theorem exists_firstDefect_of_hidden_instruction :
    (∀ statement ∈ statements "FLY R1\n1ST:".toList, statement.Readable) ∧
      Text.isShort 50 = true ∧
      4 * (Text.lines "FLY R1\n1ST:".toList).length < 10 ^ maxDecimalDigits ∧
      ∃ i text cause, (Text.lines "FLY R1\n1ST:".toList)[i]? = some text ∧
        FirstDefect .classic 50 (statements "FLY R1\n1ST:".toList) i cause ∧
        Failure.rejected ⟨.invalidLabel "1ST".toList, ⟨2, "1ST:".toList⟩⟩ =
          .rejected ⟨cause, ⟨i + 1, text⟩⟩ := by
  have short : ∀ statement ∈ statements "FLY R1\n1ST:".toList,
      ∀ token ∈ statement.tokens, token.length ≤ maxDecimalDigits := by decide +kernel
  have readable : ∀ statement ∈ statements "FLY R1\n1ST:".toList, statement.Readable :=
    fun statement inside => Statement.readable_of_short (short statement inside)
  have small : 4 * (Text.lines "FLY R1\n1ST:".toList).length < 10 ^ maxDecimalDigits := by
    have count : 4 * (Text.lines "FLY R1\n1ST:".toList).length ≤ maxDecimalDigits := by
      decide +kernel
    exact Nat.lt_of_le_of_lt count (Nat.lt_pow_self (by decide))
  have told := (assemble_eq_ok_iff_acceptable .classic _ 50 256 readable).2.2 (by decide) small
  exact ⟨readable, by decide, small, (told _).mp (by decide +kernel)⟩

/-- A label where a limit below zero allows none is not reported when the limit has too many
digits: what is wrong is told by a message that shows the limit. -/
theorem not_forall_rejected :
    ¬ ∀ (maxLabels : Int) (failure : Failure),
      (assemble .classic "A:".toList maxLabels 256).result = .error failure →
        ∃ error, failure = .rejected error := by
  intro all
  have source : statements "A:".toList = [.label "A".toList] := by decide +kernel
  have named : FreeOf (fun _ => NamingDefect) (statements "A:".toList) := by
    rw [source, freeOf_namingDefect_iff]
    intro name inside
    cases List.mem_singleton.mp inside
    exact ⟨⟨'A', [], rfl, .inl (by decide), nofun⟩, by decide⟩
  have below : -Text.firstLong ≤ 0 := Int.neg_nonpos_of_nonneg (Int.natCast_nonneg _)
  have bad : FirstAt (PlacingDefect (-Text.firstLong)) (statements "A:".toList) 0
      (.tooManyLabels (-Text.firstLong)) := by
    rw [source]
    exact firstAt_zero_iff.mpr (.tooMany List.not_mem_nil below)
  obtain ⟨text, -, refused⟩ := @assemble_of_placingDefect .classic _ 256 _ _ _ named bad
  have long : ¬ Text.isShort (-Text.firstLong) = true := by
    rw [Text.isShort_neg]
    exact Text.not_isShort_firstLong
  have silent :
      (⟨.tooManyLabels (-Text.firstLong), ⟨(0 : Nat) + 1, text⟩⟩ : SourceError).writable = false :=
    SourceError.writable_eq_false (List.mem_cons_of_mem _ List.mem_cons_self) long
  rw [Place.reject_of_not_writable silent] at refused
  obtain ⟨error, same⟩ := all _ _ refused
  cases same

end ByteMachine
