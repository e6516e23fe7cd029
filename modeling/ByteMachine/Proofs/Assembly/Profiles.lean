import ByteMachine.Proofs.Assembly.Image
import ByteMachine.Proofs.Assembly.Refusal
import ByteMachine.Proofs.Source.Printed

/-!
# One program text under two profiles

What the profile changes about an assembly. A label has another address under another sizing, but
only a branch that carries its target shows the address, and only such a branch can be refused
for it. So a profile that leaves the targets out accepts whatever a profile accepts that carries
them, with the same lines behind the same labels and a byte less for each branch; and where the
two disagree, a branch goes to a label whose address is no byte.

The comparison is made line by line (`refusal?_twin`). It lifts to the first refusals, because a
line that only one of the two refuses is refused for its target.

## Main results

* `refusal?_twin`: one line under two profiles.
* `exists_sameButTargets`: the contexts of two assemblies of one program text.
* `profiles_agree`: the outcomes of the two, errors and all.
-/

namespace ByteMachine

/-- A **branch line**: its word is that of an instruction with a label among its operands. -/
def Statement.isBranch (statement : Statement) : Bool :=
  (statement.mnemonic?.bind Mnemonic.ofName?).any fun mnemonic => mnemonic.definition.isBranch

/-- The label that a branch line names: the last of its tokens. -/
def Statement.goesTo? : Statement → Option Text
  | .instruction word tokens =>
    if (Statement.instruction word tokens).isBranch then tokens.getLast? else none
  | _ => none

/-- The contexts have the **same lines and labels**, the first without the targets of branches:
the same names are declared by the same lines, the listings show the same lines, and an entry has
the same bytes in both, for a branch line without the last one. -/
structure SameButTargets (bare full : Context) : Prop where
  labels : bare.labels.map (fun label => (label.name, label.lineNum)) =
    full.labels.map fun label => (label.name, label.lineNum)
  listing : List.Forall₂ (fun entry other : ListingEntry => entry.place = other.place ∧
      entry.bytes = if (statementOf other.place.text).isBranch then other.bytes.dropLast
        else other.bytes)
    bare.listing full.listing

/-- A failure for a **target** on the branch line of index `i`: its label has an address that is no
byte. The line is rejected for that. Only in a program text with more than `10 ^ 4299` lines could
the address have too many digits to be shown. -/
def TargetTooFar (source : Text) (i : Nat) (failure : Failure) : Prop :=
  ∃ (text name : Text) (address : Nat), (Text.lines source)[i]? = some text ∧
    (statementOf text).isBranch = true ∧ 0xFF < address ∧
    address ≤ 4 * (Text.lines source).length ∧
    failure = Place.reject ⟨i + 1, text⟩ (.addressTooLarge name address)

variable {first second : Profile} {maxLabels maxProgramSize : Int} {source : Text} {line : Line}
  {failure : Failure}

/-! ### Branch lines -/

/-- A statement that writes an instruction is a branch line exactly if that goes to a label. -/
theorem Statement.Writes.isBranch_eq {statement : Statement} {written : Written}
    (writes : statement.Writes written) : statement.isBranch = written.label?.isSome := by
  obtain ⟨tokens, rfl, -⟩ := writes
  rw [Statement.isBranch, Statement.mnemonic?, Option.bind_some, Mnemonic.ofName?_name]
  cases written <;> rfl

/-- A statement that writes an instruction names the label which that goes to. -/
theorem Statement.Writes.goesTo?_eq {statement : Statement} {written : Written}
    (writes : statement.Writes written) : statement.goesTo? = written.label? := by
  have branch := writes.isBranch_eq
  obtain ⟨tokens, rfl, spells⟩ := writes
  rw [Statement.goesTo?, branch]
  -- The last token spells the label, and a token that spells a label is that label.
  cases written with
  | branchIf register value name =>
      rcases spells with _ | ⟨-, _ | ⟨-, _ | ⟨⟨-⟩, ⟨⟩⟩⟩⟩
      rfl
  | jump name =>
      rcases spells with _ | ⟨⟨-⟩, ⟨⟩⟩
      rfl
  | _ => rfl

/-- A branch without its target has one byte less, and every other instruction has the same
bytes. -/
theorem Written.bytes_encode_false (written : Written) (byteOf other : Text → UInt8) :
    (written.encode false byteOf).bytes =
      if written.label?.isSome then (written.encode true other).bytes.dropLast
      else (written.encode true other).bytes := by
  cases written <;> rfl

/-- An instruction that goes to no label has one encoding, whatever the profile and the labels. -/
theorem Written.encode_eq_of_label?_eq_none {written : Written} (plain : written.label? = none)
    (targets others : Bool) (byteOf other : Text → UInt8) :
    written.encode targets byteOf = written.encode others other := by
  cases written with
  | branchIf _ _ _ => cases plain
  | jump _ => cases plain
  | _ => rfl

/-! ### One line -/

/-- A line **under two profiles**, the first of which leaves targets out: either both do the same
with it, or the second alone refuses it, for the target of a branch. -/
theorem refusal?_twin (omits : first.encodesTargets = false)
    (inside : line ∈ sourceLines source) :
    (Context.placing second maxLabels (sourceLines source)).refusal? line =
        (Context.placing first maxLabels (sourceLines source)).refusal? line ∨
      (Context.placing first maxLabels (sourceLines source)).refusal? line = none ∧
        line.statement.isBranch = true ∧ ∃ (name : Text) (address : Nat), 0xFF < address ∧
          address ≤ 4 * (Text.lines source).length ∧
          (Context.placing second maxLabels (sourceLines source)).refusal? line =
            some (line.place.reject (.addressTooLarge name address)) := by
  rcases refusal?_cases (unbroken_sourceLines source line inside) with
    ⟨refusal, same⟩ | ⟨written, name, writes, goes, only⟩
  · rw [same, same]
    exact .inl rfl
  · have defects (profile : Profile) (failure : Failure) :
        (Context.placing profile maxLabels (sourceLines source)).refusal? line = some failure ↔
          ∃ cause, LabelDefect profile ((sourceLines source).map Line.statement) name cause ∧
            failure = line.place.reject cause := by
      rw [only]
      exact targetDefect_iff rfl
    by_cases declared : .label name ∈ (sourceLines source).map Line.statement
    · have fine : (Context.placing first maxLabels (sourceLines source)).refusal? line = none := by
        refine Option.eq_none_iff_forall_ne_some.mpr fun failure refused => ?_
        obtain ⟨cause, defect, -⟩ := (defects first failure).mp refused
        cases defect with
        | undeclared undeclared => exact undeclared declared
        | tooHigh _ carries _ => rw [omits] at carries; cases carries
      cases refused : (Context.placing second maxLabels (sourceLines source)).refusal? line with
      | none => exact .inl fine.symm
      | some failure =>
          obtain ⟨cause, defect, rfl⟩ := (defects second failure).mp refused
          cases defect with
          | undeclared undeclared => exact absurd declared undeclared
          | tooHigh _ _ high =>
              refine .inr ⟨fine, ?_, name, _, high, ?_, rfl⟩
              · rw [writes.isBranch_eq, goes]
                rfl
              · have bound := addressOf_le second (statements source) name
                rw [map_statement_sourceLines, statements]
                rwa [statements, List.length_map] at bound
    · have refused (profile : Profile) :
          (Context.placing profile maxLabels (sourceLines source)).refusal? line =
            some (line.place.reject (.labelNotFound name)) :=
        (defects profile _).mpr ⟨_, .undeclared declared, rfl⟩
      rw [refused, refused]
      exact .inl rfl

/-- A line that is no branch is treated alike under all profiles: it never looks at the label
table. -/
theorem refusal?_eq_of_not_isBranch (inside : line ∈ sourceLines source)
    (plain : line.statement.isBranch = false) :
    (Context.placing first maxLabels (sourceLines source)).refusal? line =
      (Context.placing second maxLabels (sourceLines source)).refusal? line := by
  rcases refusal?_cases (unbroken_sourceLines source line inside) with
    ⟨refusal, same⟩ | ⟨written, name, writes, goes, -⟩
  · rw [same, same]
  · rw [writes.isBranch_eq, goes] at plain
    cases plain

/-! ### The first refusals -/

/-- A line that is refused for a target is found at its index in the program text. -/
theorem targetTooFar_of_getElem? {i : Nat} {name : Text} {address : Nat}
    (here : (sourceLines source)[i]? = some line) (branch : line.statement.isBranch = true)
    (far : 0xFF < address) (bound : address ≤ 4 * (Text.lines source).length) :
    TargetTooFar source i (line.place.reject (.addressTooLarge name address)) := by
  obtain ⟨text, stands, place⟩ := place_of_getElem?_sourceLines here
  rw [statement_eq_of_mem_sourceLines (List.mem_of_getElem? here), place] at branch
  exact ⟨text, name, address, stands, branch, far, bound, by rw [place]⟩

/-- What the second profile alone refuses, it refuses for a target that is no byte. -/
theorem targetTooFar_of_refusal? {i : Nat} (omits : first.encodesTargets = false)
    (here : (sourceLines source)[i]? = some line)
    (fine : (Context.placing first maxLabels (sourceLines source)).refusal? line = none)
    (refused : (Context.placing second maxLabels (sourceLines source)).refusal? line =
      some failure) : TargetTooFar source i failure := by
  rcases @refusal?_twin first second maxLabels _ _ omits (List.mem_of_getElem? here) with
    same | ⟨-, branch, name, address, far, bound, alone⟩
  · rw [same, fine] at refused
    cases refused
  · rw [alone] at refused
    cases refused
    exact targetTooFar_of_getElem? here branch far bound

/-- What the first profile refuses, the second refuses for the same reason. -/
theorem refusal?_of_refusal? (omits : first.encodesTargets = false)
    (inside : line ∈ sourceLines source)
    (refused : (Context.placing first maxLabels (sourceLines source)).refusal? line =
      some failure) :
    (Context.placing second maxLabels (sourceLines source)).refusal? line = some failure := by
  rcases @refusal?_twin first second maxLabels _ _ omits inside with same | ⟨fine, -⟩
  · rw [same, refused]
  · rw [fine] at refused
    cases refused

section Placed

variable (omits : first.encodesTargets = false)
  (named : FreeOf (fun _ => NamingDefect) (statements source))
  (placed : FreeOf (PlacingDefect maxLabels) (statements source))

include omits named placed

/-- What is assembled under the second profile is assembled under the first as well. -/
theorem exists_context_of_twin {context : Context}
    (assembled : (assemble second source maxLabels maxProgramSize).result = .ok context) :
    ∃ other, (assemble first source maxLabels maxProgramSize).result = .ok other := by
  have clean := List.findSome?_eq_none_iff.mp
    ((exists_context_iff named placed).mp ⟨context, assembled⟩)
  refine (exists_context_iff named placed).mpr (List.findSome?_eq_none_iff.mpr ?_)
  refine fun line inside => Option.eq_none_iff_forall_ne_some.mpr fun failure refused => ?_
  have both := clean line inside
  rw [refusal?_of_refusal? omits inside refused] at both
  cases both

/-- What is assembled under the first profile is assembled under the second, or refused there
for a target. -/
theorem exists_context_or_targetTooFar {context : Context}
    (assembled : (assemble first source maxLabels maxProgramSize).result = .ok context) :
    (∃ other, (assemble second source maxLabels maxProgramSize).result = .ok other) ∨
      ∃ i failure, TargetTooFar source i failure ∧
        (assemble second source maxLabels maxProgramSize).result = .error failure := by
  have clean := List.findSome?_eq_none_iff.mp
    ((exists_context_iff named placed).mp ⟨context, assembled⟩)
  cases result : (assemble second source maxLabels maxProgramSize).result with
  | ok other => exact .inl ⟨other, rfl⟩
  | error failure =>
      obtain ⟨i, line, here, refused, -⟩ :=
        exists_index_of_findSome? ((assemble_eq_error_iff named placed).mp result)
      exact .inr ⟨i, failure, targetTooFar_of_refusal? omits here
        (clean line (List.mem_of_getElem? here)) refused, rfl⟩

/-- What is refused under the first profile is refused under the second, for the same reason
or for a target on an earlier line. -/
theorem assemble_error_or_targetTooFar
    (rejected : (assemble first source maxLabels maxProgramSize).result = .error failure) :
    (assemble second source maxLabels maxProgramSize).result = .error failure ∨
      ∃ i, StopsAt first maxLabels source i failure ∧ ∃ j < i, ∃ other,
        TargetTooFar source j other ∧
          (assemble second source maxLabels maxProgramSize).result = .error other := by
  obtain ⟨i, line, here, refused, before⟩ :=
    exists_index_of_findSome? ((assemble_eq_error_iff named placed).mp rejected)
  have again : (Context.placing second maxLabels (sourceLines source)).refusal? line =
      some failure := refusal?_of_refusal? omits (List.mem_of_getElem? here) refused
  cases result : (assemble second source maxLabels maxProgramSize).result with
  | ok other =>
      have clean := List.findSome?_eq_none_iff.mp
        ((exists_context_iff named placed).mp ⟨other, result⟩) line (List.mem_of_getElem? here)
      rw [again] at clean
      cases clean
  | error other =>
      obtain ⟨j, bad, there, alone, earlier⟩ :=
        exists_index_of_findSome? ((assemble_eq_error_iff named placed).mp result)
      -- The second profile stops at line `i` at the latest, since it refuses that line too.
      rcases Nat.lt_trichotomy j i with less | rfl | more
      · exact .inr ⟨i, stopsAt_of_refusal? named placed here refused before, j, less, other,
          targetTooFar_of_refusal? omits there (before j less bad there) alone, rfl⟩
      · rw [here] at there
        cases there
        rw [again] at alone
        cases alone
        exact .inl rfl
      · have none := earlier i more line here
        rw [again] at none
        cases none

end Placed

/-! ### The contexts -/

/-- The labels of lines have the same names and the same declarations under all profiles. Only their
addresses may differ. -/
theorem map_declaration_placements (first second : Profile) (address other : Nat)
    (lines : List Line) :
    (placements first address lines).map (fun label => (label.name, label.lineNum)) =
      (placements second other lines).map fun label => (label.name, label.lineNum) := by
  induction lines generalizing address other with
  | nil => rfl
  | cons line lines ih =>
      rw [placements, placements, List.map_append, List.map_append]
      refine congrArg₂ (· ++ ·) ?_ (ih _ _)
      cases line.statement.label? <;> rfl

/-- Two assemblies of one program text are of the same program, whatever the profiles. -/
theorem Assembles.program_unique {program others : List Written} {context other : Context}
    (assembles : Assembles first maxLabels source program context)
    (assembles' : Assembles second maxLabels source others other) : program = others := by
  have unique : Relator.RightUnique fun (line : Line) => line.statement.Writes :=
    fun _ _ _ => Statement.Writes.unique
  exact unique.forall₂ assembles.writes assembles'.writes

/-- Two assemblies of one program text, the first without targets, leave the **same lines and
labels** behind. -/
theorem exists_sameButTargets {context other : Context} (omits : first.encodesTargets = false)
    (carries : second.encodesTargets = true)
    (assembled : (assemble first source maxLabels maxProgramSize).result = .ok context)
    (assembled' : (assemble second source maxLabels maxProgramSize).result = .ok other) :
    SameButTargets context other := by
  obtain ⟨program, assembles⟩ := exists_assembles assembled
  obtain ⟨others, assembles'⟩ := exists_assembles assembled'
  obtain rfl := assembles.program_unique assembles'
  constructor
  · rw [assembles.labels_eq, assembles'.labels_eq]
    exact map_declaration_placements ..
  · have lists := omits ▸ assembles.lists
    have lists' := carries ▸ assembles'.lists
    have places := assembles.map_place_listing.trans assembles'.map_place_listing.symm
    refine List.forall₂_iff_get.mpr ⟨lists.length_eq.trans lists'.length_eq.symm,
      fun i short short' => ?_⟩
    have one := lists.get short (lists.length_eq ▸ short)
    have two := lists'.get short' (lists'.length_eq ▸ short')
    have place := congrArg (·[i]?) places
    simp only [List.getElem?_map, List.getElem?_eq_getElem short,
      List.getElem?_eq_getElem short', Option.map_some, Option.some.injEq] at place
    refine ⟨place, ?_⟩
    rw [one.bytes_eq, two.bytes_eq, two.writes.isBranch_eq]
    exact Written.bytes_encode_false ..

theorem program_eq_of_not_isBranch {context other : Context}
    (plain : ∀ statement ∈ statements source, statement.isBranch = false)
    (assembled : (assemble first source maxLabels maxProgramSize).result = .ok context)
    (assembled' : (assemble second source maxLabels maxProgramSize).result = .ok other) :
    context.program = other.program := by
  obtain ⟨program, assembles⟩ := exists_assembles assembled
  obtain ⟨others, assembles'⟩ := exists_assembles assembled'
  obtain rfl := assembles.program_unique assembles'
  rw [assembles.program_eq, assembles'.program_eq, imageOf, imageOf]
  refine List.flatMap_congr fun written among => congrArg Instruction.bytes ?_
  obtain ⟨i, short, rfl⟩ := List.getElem_of_mem among
  have shorter := assembles.length_eq.symm ▸ short
  have writes := assembles.writes.get shorter short
  have inside := (List.mem_filter.mp (List.getElem_mem shorter)).1
  have goesNowhere := writes.isBranch_eq.symm.trans (plain _ (statement_mem_statements inside))
  exact Written.encode_eq_of_label?_eq_none (Option.not_isSome_iff_eq_none.mp
    (Bool.eq_false_iff.mp goesNowhere)) ..

/-- A program text without branch lines has one outcome under all profiles: one image, or one
failure. -/
theorem assemble_eq_of_not_isBranch (first second : Profile)
    (plain : ∀ statement ∈ statements source, statement.isBranch = false) :
    (assemble first source maxLabels maxProgramSize).result.map Context.program =
      (assemble second source maxLabels maxProgramSize).result.map Context.program := by
  rcases assemble_phases maxLabels source with ⟨failure, fails⟩ | ⟨named, placed⟩
  · rw [fails, fails]
  · have same : (sourceLines source).findSome?
          (Context.placing first maxLabels (sourceLines source)).refusal? =
        (sourceLines source).findSome?
          (Context.placing second maxLabels (sourceLines source)).refusal? := by
      rw [← List.head?_filterMap, ← List.head?_filterMap]
      refine congrArg List.head? (List.filterMap_congr fun line inside => ?_)
      exact refusal?_eq_of_not_isBranch inside (plain _ (statement_mem_statements inside))
    cases result : (assemble first source maxLabels maxProgramSize).result with
    | ok context =>
        have clean := (exists_context_iff named placed).mp ⟨context, result⟩
        rw [same] at clean
        obtain ⟨other, result'⟩ :=
          (@exists_context_iff second _ maxProgramSize _ named placed).mpr clean
        rw [result', Except.map, Except.map, program_eq_of_not_isBranch plain result result']
    | error failure =>
        have refused := (assemble_eq_error_iff named placed).mp result
        rw [same] at refused
        rw [(assemble_eq_error_iff named placed).mpr refused]

/-! ### The outcomes -/

/-- **Profiles agree** up to the targets of branches. Let the first profile leave them out and the
second carry them, with any sizing. What is assembled under the second is assembled under the
first, with the same labels and lines and the same bytes but for the targets. What is assembled
under the first is assembled under the second, or refused there for a target that is no byte. An
error under the first is the error under the second too, unless the first stops in its second pass
and the second profile has an earlier branch to refuse for its target. And a program text without
branch lines has the same image or the same error under all profiles. -/
theorem profiles_agree (omits : first.encodesTargets = false)
    (carries : second.encodesTargets = true) (source : Text) (maxLabels maxProgramSize : Int) :
    let bare := (assemble first source maxLabels maxProgramSize).result
    let full := (assemble second source maxLabels maxProgramSize).result
    (∀ context, full = .ok context → ∃ other, bare = .ok other ∧ SameButTargets other context) ∧
    (∀ context, bare = .ok context → (∃ other, full = .ok other) ∨
      ∃ i failure, TargetTooFar source i failure ∧ full = .error failure) ∧
    (∀ failure, bare = .error failure → full = .error failure ∨
      ∃ i, StopsAt first maxLabels source i failure ∧
        ∃ j < i, ∃ other, TargetTooFar source j other ∧ full = .error other) ∧
    ((∀ statement ∈ statements source, statement.isBranch = false) →
      ∀ profile other : Profile,
        (assemble profile source maxLabels maxProgramSize).result.map Context.program =
          (assemble other source maxLabels maxProgramSize).result.map Context.program) := by
  intro bare full
  have branchless := fun plain profile other =>
    @assemble_eq_of_not_isBranch maxLabels maxProgramSize source profile other plain
  rcases assemble_phases maxLabels source with ⟨failure, fails⟩ | ⟨named, placed⟩
  · have bareFails : bare = .error failure := fails first maxProgramSize
    have fullFails : full = .error failure := fails second maxProgramSize
    refine ⟨?_, ?_, ?_, branchless⟩
    · rw [fullFails]
      exact nofun
    · rw [bareFails]
      exact nofun
    · rw [bareFails, fullFails]
      exact fun _ same => .inl same
  · refine ⟨fun context assembled => ?_, fun _ => exists_context_or_targetTooFar omits named placed,
      fun _ => assemble_error_or_targetTooFar omits named placed, branchless⟩
    obtain ⟨other, assembled'⟩ := exists_context_of_twin omits named placed assembled
    exact ⟨other, assembled', exists_sameButTargets omits carries assembled' assembled⟩

/-- A jump has its target behind it under the second of the two named profiles only. -/
theorem exists_sameButTargets_jump :
    ∃ bare full, (assemble .classic "A:\nJMP A".toList 50 256).result = .ok bare ∧
      (assemble .resolved "A:\nJMP A".toList 50 256).result = .ok full ∧
      SameButTargets bare full ∧ full.program = [0x06, 0x00] := by
  have worked : (assemble .resolved "A:\nJMP A".toList 50 256).result.toOption.any
      (fun context => context.program = [0x06, 0x00]) = true := by
    decide +kernel
  obtain ⟨full, assembled, image⟩ := exists_context_of_any worked
  obtain ⟨bare, assembled', same⟩ :=
    (@profiles_agree .classic .resolved rfl rfl "A:\nJMP A".toList 50 256).1 full assembled
  exact ⟨bare, full, assembled', assembled, same, of_decide_eq_true image⟩

end ByteMachine
