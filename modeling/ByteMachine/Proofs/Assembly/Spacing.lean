import Mathlib.Data.List.Forall2
import ByteMachine.Assembler
import ByteMachine.Proofs.Assembly.Acceptance
import ByteMachine.Proofs.Source.Correspondence

/-!
# Assembling under other spacing

Spacing and comments mean nothing to an assembly. Both passes go over the lines of the one text
and of the other in step, past the blank lines that only the other has, and what they build up
stays the same but for the numbers of the lines. A label, a site and an entry of the listing
remember their line, so each of them moves with it; addresses and bytes stand as they are.

The contexts of the two assemblies are compared by `Context.Moves`, their results by
`SameOutcome`. A failure is part of this: a text that is not assembled is not assembled under
other spacing either, for the same cause on the corresponding line.

## Main results

* `Context.Moves.sameOutcome_encodeLine`: corresponding lines are encoded alike.
* `Context.Moves.placeLabels`, `Context.Moves.encodeLines`: the walks of the two passes.
* `moves_assemble_of_harmless`: harmless edits of a program text do not change its assembly.
-/

namespace ByteMachine

/-! ### Contexts that correspond -/

/-- A label under the new number of its line, at the same address. -/
def Label.renumber (shift : Int → Int) (label : Label) : Label :=
  { label with lineNum := shift label.lineNum }

/-- A branch site under the new number of its line. -/
def BranchSite.renumber (shift : Int → Int) (site : BranchSite) : BranchSite :=
  { site with lineNum := shift site.lineNum }

/-- An entry of the listing **moves** to one with the same address and the same bytes at a
corresponding place. -/
structure ListingEntry.Moves (shift : Int → Int) (first second : ListingEntry) : Prop where
  place : first.place.Moves shift second.place
  address : second.address = first.address
  bytes : second.bytes = first.bytes

/-- A context **moves** to one with the same image, the same labels and sites under the new
numbers of their lines, and a listing that moves entry by entry. -/
structure Context.Moves (shift : Int → Int) (first second : Context) : Prop where
  profile : second.profile = first.profile
  maxLabels : second.maxLabels = first.maxLabels
  labels : second.labels = first.labels.map (Label.renumber shift)
  sites : second.sites = first.sites.map (BranchSite.renumber shift)
  program : second.program = first.program
  listing : List.Forall₂ (ListingEntry.Moves shift) first.listing second.listing

/-- A pass **moves** to one with the same log, a context that corresponds and the same outcome. -/
structure Pass.Moves {α : Type} (shift : Int → Int) (first second : Pass α) : Prop where
  context : first.context.Moves shift second.context
  log : second.log = first.log
  result : SameOutcome shift Eq first.result second.result

/-- An assembly **moves** to one with the same log and the same outcome: contexts that
correspond, or failures that do. -/
structure Assembly.Moves (shift : Int → Int) (first second : Assembly) : Prop where
  log : second.log = first.log
  result : SameOutcome shift (Context.Moves shift) first.result second.result

/-- An encoded line **moves** to one with an entry that corresponds and the same site. -/
structure Encoded.Moves (shift : Int → Int) (first second : Encoded) : Prop where
  entry : first.entry.Moves shift second.entry
  site : second.site = first.site.map (BranchSite.renumber shift)

variable {shift : Int → Int} {first second : Context} {here there : Place} {line other : Line}
  {lines others : List Line}

/-! ### Parts of contexts -/

/-- The byte of a target is the same one for corresponding branches, or it is no byte for both. -/
theorem Place.Moves.sameOutcome_targetByte (places : here.Moves shift there) (label : Label) :
    SameOutcome shift Eq (Context.targetByte label here)
      (Context.targetByte (label.renumber shift) there) := by
  have same : Context.targetByte (label.renumber shift) there = Context.targetByte label there :=
    rfl
  rw [same, Context.targetByte, Context.targetByte]
  split
  · exact .reject places rfl
  · split
    · exact .error .negativeAddress
    · exact .ok rfl

/-- Corresponding encoded lines have the same sites under their new numbers. -/
theorem filterMap_site_of_moves {encoded reencoded : List Encoded}
    (same : List.Forall₂ (Encoded.Moves shift) encoded reencoded) :
    reencoded.filterMap Encoded.site =
      (encoded.filterMap Encoded.site).map (BranchSite.renumber shift) := by
  induction same with
  | nil => rfl
  | @cons line other _ _ head _ ih =>
      rw [List.filterMap_cons, List.filterMap_cons, head.site, ih]
      cases line.site <;> rfl

theorem flatMap_bytes_of_moves {encoded reencoded : List Encoded}
    (same : List.Forall₂ (Encoded.Moves shift) encoded reencoded) :
    (reencoded.flatMap fun line => line.entry.bytes) =
      encoded.flatMap fun line => line.entry.bytes := by
  induction same with
  | nil => rfl
  | cons head _ ih => rw [List.flatMap_cons, List.flatMap_cons, head.entry.bytes, ih]

namespace Context.Moves

theorem label?_eq (moves : first.Moves shift second) (name : Text) :
    second.label? name = (first.label? name).map (Label.renumber shift) := by
  rw [label?, moves.labels, List.find?_map, label?]
  rfl

theorem sizeOf_eq (moves : first.Moves shift second) (statement : Statement) :
    second.sizeOf statement = first.sizeOf statement := by
  rw [sizeOf, moves.profile, sizeOf]

/-! ### Placing the labels -/

/-- A label is declared alike on corresponding lines. A duplicate points back to the new number of
the first declaration. -/
theorem sameOutcome_addLabel (moves : first.Moves shift second) (places : here.Moves shift there)
    (name : Text) (address : Int) :
    SameOutcome shift (Context.Moves shift) (first.addLabel name address here)
      (second.addLabel name address there) := by
  rw [addLabel, addLabel, moves.label?_eq]
  cases first.label? name with
  | some label => exact .error (.rejected (.duplicateLabel name label.lineNum) places)
  | none =>
      have full : second.maxLabels ≤ second.labels.length ↔
          first.maxLabels ≤ first.labels.length := by
        rw [moves.maxLabels, moves.labels, List.length_map]
      simp only [Option.map_none, full]
      split
      · rw [moves.maxLabels]
        exact .reject places rfl
      · refine .ok { moves with labels := ?_ }
        rw [moves.labels, List.map_append, places.lineNum]
        rfl

/-- Corresponding lines are **placed** alike, by induction on the correspondence. Blank lines that
are inserted place nothing. -/
theorem placeLabels (moves : first.Moves shift second) (correspond : Correspond shift lines others)
    (address : Nat) :
    (first.placeLabels address lines).1.Moves shift (second.placeLabels address others).1 ∧
      SameOutcome shift Eq (first.placeLabels address lines).2
        (second.placeLabels address others).2 := by
  -- A label changes both contexts, so the induction is for all contexts that correspond.
  induction correspond generalizing first second address with
  | nil => exact ⟨moves, .ok rfl⟩
  | @same line other _ _ goes _ ih =>
      rw [Context.placeLabels, Context.placeLabels, goes.statement]
      cases stated : line.statement with
      | blank => exact ih moves address
      | label name =>
          have added := moves.sameOutcome_addLabel goes.place name address
          simp only
          generalize first.addLabel name address line.place = extended at added ⊢
          generalize second.addLabel name address other.place = reextended at added ⊢
          cases added with
          | ok still => exact ih still address
          | error fails => exact ⟨moves, .error fails⟩
      | instruction word tokens =>
          simp only [moves.sizeOf_eq]
          exact ih moves _
  | inserted blank _ ih =>
      simp only [Context.placeLabels, blank]
      exact ih moves address

/-! ### Encoding the instructions -/

theorem sameOutcome_findLabel (moves : first.Moves shift second) (places : here.Moves shift there)
    (name : Text) :
    SameOutcome shift (fun label moved => moved = label.renumber shift)
      (first.findLabel name here) (second.findLabel name there) := by
  rw [findLabel, findLabel, moves.label?_eq]
  cases first.label? name with
  | some label => exact .ok rfl
  | none =>
      rw [Option.map_none]
      exact .reject places rfl

/-- Operands are encoded alike on corresponding lines, by induction on the operands. -/
theorem sameOutcome_encodeOperands (moves : first.Moves shift second)
    (places : here.Moves shift there) (operands : List Operand) :
    SameOutcome shift
      (fun encoded moved => moved = (encoded.1, encoded.2.map (Label.renumber shift)))
      (first.encodeOperands here operands) (second.encodeOperands there operands) := by
  induction operands with
  | nil => exact .ok rfl
  | cons operand operands ih =>
      cases operand with
      | register index token | immediate value token =>
          refine ih.bind ?_
          rintro encoded _ rfl
          exact .ok rfl
      | label name =>
          refine (moves.sameOutcome_findLabel places name).bind ?_
          rintro label _ rfl
          have behind (carried : List UInt8) : SameOutcome shift
              (fun encoded moved => moved = (encoded.1, encoded.2.map (Label.renumber shift)))
              (first.encodeOperands here operands >>= fun encoded =>
                .ok (carried ++ encoded.1, encoded.2.or (some label)))
              (second.encodeOperands there operands >>= fun encoded =>
                .ok (carried ++ encoded.1, encoded.2.or (some (label.renumber shift)))) := by
            refine ih.bind ?_
            rintro ⟨bytes, target⟩ _ rfl
            cases target <;> exact .ok rfl
          rw [moves.profile]
          split
          · have carried := (places.sameOutcome_targetByte label).map (f := ([·])) (g := ([·]))
              fun byte moved same => congrArg List.singleton same
            refine carried.bind ?_
            rintro bytes _ rfl
            exact behind bytes
          · exact behind []

/-- Corresponding lines are **encoded** alike: to the same bytes, or refused for the same cause.
Only the number of the line in the entry and at the site may differ. -/
theorem sameOutcome_encodeLine (moves : first.Moves shift second) (goes : line.Moves shift other)
    (offset : Nat) :
    SameOutcome shift (Encoded.Moves shift) (first.encodeLine offset line)
      (second.encodeLine offset other) := by
  rw [encodeLine, encodeLine, goes.statement]
  cases line.statement.mnemonic?.bind Mnemonic.ofName? with
  | none => exact .reject goes.place rfl
  | some mnemonic =>
      refine (sameOutcome_parseOperands goes.place _ _).bind ?_
      rintro operands _ rfl
      refine (moves.sameOutcome_encodeOperands goes.place operands).bind ?_
      rintro ⟨bytes, target⟩ _ rfl
      refine .ok ⟨⟨goes.place, rfl, rfl⟩, ?_⟩
      cases target with
      | none => rfl
      | some label =>
          simp only [Option.map_some, goes.place.lineNum]
          rfl

/-- A label is checked alike on corresponding lines, against the same address. -/
theorem sameOutcome_checkLabel (moves : first.Moves shift second) (places : here.Moves shift there)
    (address : Nat) (name : Text) :
    SameOutcome shift Eq (first.checkLabel address name here)
      (second.checkLabel address name there) := by
  rw [checkLabel, checkLabel, moves.label?_eq]
  cases first.label? name with
  | none => exact .error (.unplacedLabel name)
  | some label =>
      simp only [Option.map_some, Label.renumber]
      split
      · exact .ok rfl
      · exact .reject places rfl

/-- Corresponding lines are **encoded** alike, one after the other. Blank lines that are inserted
add no bytes. -/
theorem encodeLines (moves : first.Moves shift second) (correspond : Correspond shift lines others)
    (offset address : Nat) :
    List.Forall₂ (Encoded.Moves shift) (first.encodeLines offset address lines).1
        (second.encodeLines offset address others).1 ∧
      SameOutcome shift Eq (first.encodeLines offset address lines).2
        (second.encodeLines offset address others).2 := by
  induction correspond generalizing offset address with
  | nil => exact ⟨.nil, .ok rfl⟩
  | @same line other _ _ goes _ ih =>
      rw [Context.encodeLines, Context.encodeLines, goes.statement]
      cases stated : line.statement with
      | blank => exact ih offset address
      | label name =>
          have checked := moves.sameOutcome_checkLabel goes.place address name
          simp only
          generalize first.checkLabel address name line.place = passed at checked ⊢
          generalize second.checkLabel address name other.place = repassed at checked ⊢
          cases checked with
          | ok same => exact ih offset address
          | error fails => exact ⟨.nil, .error fails⟩
      | instruction word tokens =>
          have encoded := moves.sameOutcome_encodeLine goes offset
          simp only [moves.sizeOf_eq]
          generalize first.encodeLine offset line = passed at encoded ⊢
          generalize second.encodeLine offset other = repassed at encoded ⊢
          cases encoded with
          | @ok made remade same =>
              simp only [same.entry.bytes]
              obtain ⟨rest, ends⟩ := ih (offset + made.entry.bytes.length)
                (address + first.sizeOf (.instruction word tokens))
              exact ⟨.cons same rest, ends⟩
          | error fails => exact ⟨.nil, .error fails⟩
  | inserted blank _ ih =>
      simp only [Context.encodeLines, blank]
      exact ih offset address

/-- Contexts still correspond when corresponding encoded lines are taken in. -/
theorem extend (moves : first.Moves shift second) {encoded reencoded : List Encoded}
    (same : List.Forall₂ (Encoded.Moves shift) encoded reencoded) :
    (first.extend encoded).Moves shift (second.extend reencoded) where
  profile := moves.profile
  maxLabels := moves.maxLabels
  labels := moves.labels
  sites := by
    rw [Context.extend, Context.extend, moves.sites, filterMap_site_of_moves same, List.map_append]
  program := by
    rw [Context.extend, Context.extend, moves.program, flatMap_bytes_of_moves same]
  listing := by
    refine List.rel_append moves.listing ?_
    rw [List.forall₂_map_left_iff, List.forall₂_map_right_iff]
    exact same.imp fun _ _ moves => moves.entry

/-! ### Both passes -/

/-- The first pass over corresponding lines leaves contexts that correspond, and ends alike. -/
theorem firstPass (moves : first.Moves shift second) (correspond : Correspond shift lines others) :
    (first.firstPass lines).Moves shift (second.firstPass others) := by
  have placed := moves.placeLabels correspond 0
  -- From here on it does not matter how the two contexts and results came about.
  rw [Context.firstPass, Context.firstPass]
  generalize first.placeLabels 0 lines = done at placed ⊢
  generalize second.placeLabels 0 others = redone at placed ⊢
  obtain ⟨context, result⟩ := done
  obtain ⟨recontext, reresult⟩ := redone
  obtain ⟨still, same⟩ := placed
  cases same with
  | ok same =>
      subst same
      have count : recontext.labels.length = context.labels.length := by
        rw [still.labels, List.length_map]
      exact ⟨still, by simp only [count], .ok rfl⟩
  | error fails => exact ⟨still, rfl, .error fails⟩

/-- The second pass over corresponding lines leaves contexts that correspond, and ends alike. -/
theorem secondPass (moves : first.Moves shift second) (correspond : Correspond shift lines others) :
    (first.secondPass lines).Moves shift (second.secondPass others) := by
  have encoded := moves.encodeLines correspond first.program.length 0
  rw [Context.secondPass, Context.secondPass, moves.program]
  generalize first.encodeLines first.program.length 0 lines = done at encoded ⊢
  generalize second.encodeLines first.program.length 0 others = redone at encoded ⊢
  obtain ⟨made, result⟩ := done
  obtain ⟨remade, reresult⟩ := redone
  obtain ⟨same, ends⟩ := encoded
  have still := moves.extend same
  have program : (second.extend remade).program = (first.extend made).program := still.program
  cases ends with
  | ok _ => exact ⟨still, by simp only [program], .ok program.symm⟩
  | error fails => exact ⟨still, rfl, .error fails⟩

/-- Both passes over corresponding lines have the same log and end alike. -/
theorem assembleLines (moves : first.Moves shift second)
    (correspond : Correspond shift lines others) (maxProgramSize : Int) :
    (assembleLines first maxProgramSize lines).Moves shift
      (assembleLines second maxProgramSize others) := by
  have once := moves.firstPass correspond
  rw [ByteMachine.assembleLines, ByteMachine.assembleLines]
  generalize first.firstPass lines = pass at once ⊢
  generalize second.firstPass others = repass at once ⊢
  obtain ⟨context, log, result⟩ := pass
  obtain ⟨recontext, relog, reresult⟩ := repass
  obtain ⟨placed, sameLog, same⟩ := once
  cases same with
  | error fails => exact ⟨sameLog, .error fails⟩
  | ok _ =>
      have twice := placed.secondPass correspond
      simp only
      generalize context.secondPass lines = pass at twice ⊢
      generalize recontext.secondPass others = repass at twice ⊢
      obtain ⟨extended, further, program⟩ := pass
      obtain ⟨reextended, refurther, reprogram⟩ := repass
      obtain ⟨still, sameFurther, same⟩ := twice
      simp only at sameLog sameFurther
      subst sameLog sameFurther
      cases same with
      | error fails => exact ⟨rfl, .error fails⟩
      | ok same =>
          subst same
          exact ⟨rfl, .ok still⟩

end Context.Moves

/-! ### Program texts -/

/-- Program texts that are respaced are assembled alike, however the one came from the other. -/
theorem Respaced.moves_assemble {source edited : Text}
    (respaced : Respaced shift 1 (Text.lines source) 1 (Text.lines edited)) (profile : Profile)
    (maxLabels maxProgramSize : Int) :
    (assemble profile source maxLabels maxProgramSize).Moves shift
      (assemble profile edited maxLabels maxProgramSize) := by
  have read := respaced.sameOutcome_readLinesFrom
  have empty : Context.Moves shift { profile, maxLabels } { profile, maxLabels } :=
    ⟨rfl, rfl, rfl, rfl, rfl, .nil⟩
  rw [assemble, assemble, readSource, readSource]
  generalize readLinesFrom 1 (Text.lines source) = lines at read ⊢
  generalize readLinesFrom 1 (Text.lines edited) = relines at read ⊢
  cases read with
  | ok correspond => exact empty.assembleLines correspond maxProgramSize
  | error fails => exact ⟨rfl, .error fails⟩

/-! ### Numbers of lines in errors -/

section Errors

variable {profile : Profile} {source edited : Text} {maxLabels maxProgramSize : Int}
  {edits : List Edit}

/-- The numbers of lines that an error of an assembly shows are numbers of lines of the text. -/
theorem lineNumber_bounds {error : SourceError}
    (refused : (assemble profile source maxLabels maxProgramSize).result =
      .error (.rejected error)) :
    ∀ n ∈ error.lineNumbers, 0 ≤ n ∧ n ≤ (Text.lines source).length := by
  rcases exists_defect_of_error refused with
    ⟨i, text, cause, stands, bad, told⟩ | ⟨-, count, other⟩
  · have inside : i < (Text.lines source).length := (List.getElem?_eq_some_iff.mp stands).1
    obtain ⟨-, same⟩ | ⟨-, other⟩ := Place.eq_reject_iff.mp told
    · cases same
      intro n shown
      have bounds := bad.lineNumber_bounds n shown
      omega
    · cases other
  · cases other

/-- The new number of a line is as short as the old one, which is none of too many lines. -/
theorem isShort_renumberAll {count : Nat} {n : Int} (low : 0 ≤ n) (high : n ≤ count)
    (few : count + edits.length < 10 ^ maxDecimalDigits) :
    Text.isShort (Edit.renumberAll edits n) = Text.isShort n := by
  have bounds := Edit.renumberAll_bounds edits n
  generalize size : 10 ^ maxDecimalDigits = limit at few
  have old : Text.isShort n = true := by
    rw [Text.isShort_iff, size]
    omega
  have new : Text.isShort (Edit.renumberAll edits n) = true := by
    rw [Text.isShort_iff, size]
    omega
  rw [old, new]

theorem isShort_of_renumberAll {n : Int} (low : 0 ≤ Edit.renumberAll edits n)
    (short : Text.isShort (Edit.renumberAll edits n) = true)
    (few : edits.length < 10 ^ maxDecimalDigits) :
    Text.isShort n = true := by
  have bounds := Edit.renumberAll_bounds edits n
  rw [Text.isShort_iff] at short ⊢
  generalize 10 ^ maxDecimalDigits = limit at few short ⊢
  omega

/-- Under edits that are few enough for the length of the text, an error of an assembly stays an
error, of the same cause and on the corresponding line. -/
theorem Assembly.Moves.exists_rejected
    (moves : (assemble profile source maxLabels maxProgramSize).Moves (Edit.renumberAll edits)
      (assemble profile edited maxLabels maxProgramSize))
    (few : (Text.lines source).length + edits.length < 10 ^ maxDecimalDigits) {error : SourceError}
    (refused : (assemble profile source maxLabels maxProgramSize).result =
      .error (.rejected error)) :
    ∃ moved : SourceError,
      (assemble profile edited maxLabels maxProgramSize).result = .error (.rejected moved) ∧
        moved.cause = error.cause.renumber (Edit.renumberAll edits) ∧
        error.place.Moves (Edit.renumberAll edits) moved.place := by
  have bounds := lineNumber_bounds refused
  have same := moves.result
  rw [refused] at same
  generalize (assemble profile edited maxLabels maxProgramSize).result = result at same ⊢
  cases same with
  | error fails =>
      generalize told : Failure.rejected error = failure at fails
      cases fails with
      | @rejected here there cause places =>
          obtain ⟨written, rejected⟩ | ⟨-, other⟩ := Place.eq_reject_iff.mp told
          · cases rejected
            have short : ∀ n ∈ (⟨cause, here⟩ : SourceError).lineNumbers,
                Text.isShort (Edit.renumberAll edits n) = Text.isShort n := by
              intro n shown
              obtain ⟨low, high⟩ := bounds n shown
              exact isShort_renumberAll low high few
            rw [← places.writable_eq short] at written
            exact ⟨_, congrArg Except.error (Place.reject_of_writable written), rfl, places⟩
          · cases other
      | _ => cases told

/-- Under edits that are not too many, an error whose message cannot be written stays one. -/
theorem Assembly.Moves.unwritable
    (moves : (assemble profile source maxLabels maxProgramSize).Moves (Edit.renumberAll edits)
      (assemble profile edited maxLabels maxProgramSize))
    (few : edits.length < 10 ^ maxDecimalDigits)
    (refused : (assemble profile source maxLabels maxProgramSize).result =
      .error (.unwritable {})) :
    (assemble profile edited maxLabels maxProgramSize).result = .error (.unwritable {}) := by
  have same := moves.result
  rw [refused] at same
  generalize reached : (assemble profile edited maxLabels maxProgramSize).result = result at same ⊢
  cases same with
  | error fails =>
      generalize told : Failure.unwritable {} = failure at fails
      cases fails with
      | @rejected here there cause places =>
          obtain ⟨written, rejected⟩ | ⟨-, unwritable⟩ :=
            there.reject_cases (cause.renumber (Edit.renumberAll edits))
          · rw [rejected] at reached
            have bounds := lineNumber_bounds reached
            have short : ∀ n ∈ (⟨cause, here⟩ : SourceError).lineNumbers,
                Text.isShort (Edit.renumberAll edits n) = Text.isShort n := by
              intro n shown
              have moved := places.lineNumbers_eq cause ▸ List.mem_map_of_mem shown
              have new := SourceError.writable_iff.mp written _
                (SourceError.mem_numbers_of_mem_lineNumbers moved)
              rw [new, isShort_of_renumberAll (bounds _ moved).1 new few]
            rw [places.writable_eq short] at written
            rw [Place.reject_of_writable written] at told
            cases told
          · rw [unwritable]
            exact congrArg Except.error told
      | _ => cases told

end Errors

/-- Harmless **edits** of a program text do not change its assembly: the log is the same, and so is
the image with its labels, sites and listing, or the cause of the failure. What is tied to a line
moves to the new number of the line. An error stays an error, of the same cause and on the
corresponding line, and one whose message cannot be written stays one, unless the text and the edits
together have so many lines that the new number of a line could not be written. -/
theorem moves_assemble_of_harmless {edits : List Edit} (harmless : ∀ edit ∈ edits, edit.Harmless)
    (profile : Profile) (source : Text) (maxLabels maxProgramSize : Int) :
    let assembly := assemble profile source maxLabels maxProgramSize
    let moved := assemble profile (Edit.applyToText edits source) maxLabels maxProgramSize
    assembly.Moves (Edit.renumberAll edits) moved ∧
      ((Text.lines source).length + edits.length < 10 ^ maxDecimalDigits →
        (∀ error, assembly.result = .error (.rejected error) →
          ∃ other : SourceError, moved.result = .error (.rejected other) ∧
            other.cause = error.cause.renumber (Edit.renumberAll edits) ∧
            error.place.Moves (Edit.renumberAll edits) other.place) ∧
        (assembly.result = .error (.unwritable {}) → moved.result = .error (.unwritable {}))) := by
  intro assembly moved
  have respaced := respaced_edits harmless (Text.lines source)
  rw [← Text.lines_applyToText harmless] at respaced
  have moves := respaced.moves_assemble profile maxLabels maxProgramSize
  refine ⟨moves, fun few => ⟨fun error => moves.exists_rejected few, fun refused => ?_⟩⟩
  exact moves.unwritable (Nat.lt_of_le_of_lt (Nat.le_add_left _ _) few) refused

/-- A label that is declared twice is reported on the new line of the second declaration, and as
declared on that of the first one, when a comment is put in front of both. -/
theorem exists_moved_duplicate :
    let edits : List Edit := [.change 0 (.trail ['\r']), .insert 0 "\t; twice".toList,
      .change 2 (.annotate " again".toList), .change 3 (.indent ['\u3000'])]
    let source := "top: ;once\nJMP top\ntop:".toList
    (∀ edit ∈ edits, edit.Harmless) ∧
      Edit.applyToText edits source =
        "\t; twice\ntop: ;once\r\nJMP top; again\n\u3000top:".toList ∧
      (assemble .classic source 50 256).result =
        .error (Place.reject ⟨3, "top:".toList⟩ (.duplicateLabel "top".toList 1)) ∧
      (assemble .classic source 50 256).Moves (Edit.renumberAll edits)
        (assemble .classic (Edit.applyToText edits source) 50 256) ∧
      (Text.lines source).length + edits.length < 10 ^ maxDecimalDigits ∧
      ∃ other : SourceError,
        (assemble .classic (Edit.applyToText edits source) 50 256).result =
            .error (.rejected other) ∧
          other.cause = .duplicateLabel "top".toList 2 ∧ other.place.lineNum = 4 := by
  intro edits source
  have harmless : ∀ edit ∈ edits, edit.Harmless := by
    refine List.forall_mem_cons.mpr ⟨.change (.trail ?_ (by decide)), ?_⟩
    · exact List.forall_mem_singleton.mpr (by decide)
    refine List.forall_mem_cons.mpr ⟨.insert (@IsIdle.comment ['\t'] _ ?_) (by decide), ?_⟩
    · exact List.forall_mem_singleton.mpr (by decide)
    refine List.forall_mem_cons.mpr ⟨.change (.annotate (by decide)), ?_⟩
    refine List.forall_mem_singleton.mpr (.change (.indent ?_ (by decide)))
    exact List.forall_mem_singleton.mpr (by decide)
  have refused : (assemble .classic source 50 256).result =
      .error (.rejected ⟨.duplicateLabel "top".toList 1, ⟨3, "top:".toList⟩⟩) := by decide +kernel
  have few : (Text.lines source).length + edits.length < 10 ^ maxDecimalDigits := by
    have count : (Text.lines source).length + edits.length ≤ maxDecimalDigits := by decide +kernel
    exact Nat.lt_of_le_of_lt count (Nat.lt_pow_self (by decide))
  obtain ⟨moves, errors⟩ := moves_assemble_of_harmless harmless .classic source 50 256
  obtain ⟨other, result, cause, place⟩ := (errors few).1 _ refused
  exact ⟨harmless, by decide +kernel, by decide +kernel, moves, few, other, result, cause,
    place.lineNum⟩

end ByteMachine
