import ByteMachine.Proofs.Assembly.Result

/-!
# Where the second pass stops

The second pass fails for the first line that it refuses. Which lines it refuses can be said of each
line by itself: the label table is complete by then, and the offset in the program only goes into
what is kept of a line, never into whether it is kept. So the failure of a pass is the first that is
found along the lines (`encodeLines_snd`), and where the pass stops is the place of that line
(`stopsAt_of_refusal?`).

A refusal has one of two sources. It lies in the words of the line, and then no context changes it;
or it lies in the label that the line goes to, and then the context alone decides
(`refusal?_cases`). That split is what two assemblies of one program text are compared by.

## Main results

* `encodeLines_snd`: a pass fails for its first refusal.
* `refusal?_cases`: what a refusal depends on.
* `assemble_phases`, `assemble_eq_error_iff`: the failures of an assembly, phase by phase.
* `stopsAt_of_refusal?`: where an assembly stops that fails in the second pass.
-/

namespace ByteMachine

/-- Why the second pass **refuses** a line, if it does. Where the line stands in the program plays
no part. -/
def Context.refusal? (context : Context) (line : Line) : Option Failure :=
  if line.statement.isInstruction then
    match context.encodeLine 0 line with
    | .ok _ => none
    | .error failure => some failure
  else none

/-- An assembly **stops** in the second pass, at the line of index `i`: all lines are read, all
labels are placed, the lines in front of that line are encoded, and with it they are not. -/
def StopsAt (profile : Profile) (maxLabels : Int) (source : Text) (i : Nat) (failure : Failure) :
    Prop :=
  ∃ lines address, readSource source = .ok lines ∧
    let first := Context.firstPass { profile, maxLabels } lines
    first.result = .ok address ∧
      (∃ program, (first.context.secondPass (lines.take i)).result = .ok program) ∧
      (first.context.secondPass (lines.take (i + 1))).result = .error failure

variable {context : Context} {passed lines : List Line} {line : Line} {failure : Failure}

/-! ### One line -/

/-- Where a line stands in the program does not decide whether it is refused. -/
theorem encodeLine_eq_error_of_offset {offset : Nat}
    (refused : context.encodeLine offset line = .error failure) (other : Nat) :
    context.encodeLine other line = .error failure := by
  cases found : line.statement.mnemonic?.bind Mnemonic.ofName? with
  | none =>
      rw [Context.encodeLine, found] at refused ⊢
      exact refused
  | some mnemonic =>
      rw [Context.encodeLine, found] at refused ⊢
      revert refused
      simp only [bind, Except.bind]
      cases parseOperands mnemonic.definition line.place line.statement.tokens with
      | error early => exact id
      | ok operands =>
          simp only
          cases context.encodeOperands line.place operands with
          | error late => exact id
          | ok encoded =>
              intro refused
              cases refused

theorem refusal?_of_not_isInstruction (plain : ¬ line.statement.isInstruction = true) :
    context.refusal? line = none :=
  if_neg plain

theorem refusal?_of_encodeLine {offset : Nat} {encoded : Encoded}
    (read : context.encodeLine offset line = .ok encoded) : context.refusal? line = none := by
  rw [Context.refusal?]
  split
  · split
    · rfl
    · rename_i refused
      rw [encodeLine_eq_error_of_offset refused offset] at read
      cases read
  · rfl

/-- An instruction line that is not encoded is refused, for the same reason. -/
theorem refusal?_of_encodeLine_error {offset : Nat}
    (instruction : line.statement.isInstruction = true)
    (refused : context.encodeLine offset line = .error failure) :
    context.refusal? line = some failure := by
  rw [Context.refusal?, if_pos instruction, encodeLine_eq_error_of_offset refused 0]

/-- What a refusal depends on, for a line that writes an instruction: its label and the
profile. -/
theorem refusal?_cases_of_spells {written : Written} {tokens : List Text}
    (writes : line.statement = .instruction written.mnemonic.name tokens)
    (spells : List.Forall₂ Spells tokens written.values)
    (read : parseOperands written.mnemonic.definition line.place tokens =
      .ok (List.zipWith Value.operand tokens written.values)) :
    (∃ refusal, ∀ context : Context, context.refusal? line = refusal) ∨
      ∃ written name, line.statement.Writes written ∧ written.label? = some name ∧
        ∀ (context : Context) failure, context.refusal? line = some failure ↔
          TargetDefect context line.place name failure := by
  have clean (context : Context) (fine : ∀ name, written.label? = some name →
      ∀ failure, ¬ TargetDefect context line.place name failure) :
      context.refusal? line = none := by
    have encoded : context.encodeLine 0 line = .ok (written.encodedAt context 0 line.place) :=
      encodeLine_of_parseOperands writes spells.length_eq read fine
    exact refusal?_of_encodeLine encoded
  cases goes : written.label? with
  | none =>
      refine .inl ⟨none, fun context => clean context fun name same => ?_⟩
      rw [goes] at same
      cases same
  | some name =>
      have wrong {context : Context} {failure : Failure}
          (defect : TargetDefect context line.place name failure) :
          context.refusal? line = some failure := by
        have refused : context.encodeLine 0 line = .error failure := by
          rw [encodeLine_eq writes, read, Except.bind,
            encodeOperands_of_targetDefect spells.length_eq goes defect]
          rfl
        exact refusal?_of_encodeLine_error (writes ▸ rfl) refused
      refine .inr ⟨written, name, ⟨tokens, writes, spells⟩, goes, fun context failure =>
        ⟨fun refused => ?_, wrong⟩⟩
      by_cases bad : ∃ other, TargetDefect context line.place name other
      · obtain ⟨other, defect⟩ := bad
        rw [wrong defect] at refused
        cases refused
        exact defect
      · have fine := clean context fun other same failure defect => by
          rw [goes] at same
          cases same
          exact bad ⟨failure, defect⟩
        rw [fine] at refused
        cases refused

/-- **What a refusal depends on**: the line alone, or what the context has for the label that the
line goes to. -/
theorem refusal?_cases (unbroken : line.Unbroken) :
    (∃ refusal, ∀ context : Context, context.refusal? line = refusal) ∨
      ∃ written name, line.statement.Writes written ∧ written.label? = some name ∧
        ∀ (context : Context) failure, context.refusal? line = some failure ↔
          TargetDefect context line.place name failure := by
  by_cases instruction : line.statement.isInstruction = true
  · obtain ⟨word, tokens, writes⟩ := Statement.exists_of_isInstruction instruction
    cases found : Mnemonic.ofName? word with
    | none =>
        refine .inl ⟨some (line.place.reject (.unknownMnemonic (some word))), fun context => ?_⟩
        rw [Context.refusal?, if_pos instruction, Context.encodeLine, writes, Statement.mnemonic?,
          Option.bind_some, found]
    | some mnemonic =>
        obtain rfl := Mnemonic.name_of_ofName? found
        have unread {failure : Failure}
            (failed : parseOperands mnemonic.definition line.place tokens = .error failure) :
            ∃ refusal, ∀ context : Context, context.refusal? line = refusal := by
          refine ⟨some failure, fun context => ?_⟩
          have refused : context.encodeLine 0 line = .error failure := by
            rw [encodeLine_eq writes, failed]
            rfl
          exact refusal?_of_encodeLine_error instruction refused
        rcases parseOperands_cases line.place mnemonic (unbroken _ _ writes) with
          ⟨written, rfl, spells, read⟩ | ⟨_, -, failed⟩ | ⟨-, _, failed⟩
        · exact refusal?_cases_of_spells writes spells read
        · exact .inl (unread failed)
        · exact .inl (unread failed)
  · exact .inl ⟨none, fun _ => refusal?_of_not_isInstruction instruction⟩

/-- The numbers of a line that is not refused can be worked out, since they have been. -/
theorem Statement.readable_of_refusal? {context : Context} {line : Line}
    (fine : context.refusal? line = none) (unbroken : line.Unbroken) : line.statement.Readable := by
  intro mnemonic tokens writes
  have instruction : line.statement.isInstruction = true := writes ▸ rfl
  cases read : parseOperands mnemonic.definition line.place tokens with
  | ok operands => exact readable_of_parseOperands read (unbroken _ _ writes)
  | error failure =>
      have refused : context.encodeLine 0 line = .error failure := by
        rw [encodeLine_eq writes, read]
        rfl
      rw [refusal?_of_encodeLine_error instruction refused] at fine
      cases fine

/-! ### All lines -/

/-- The second pass fails for its **first refusal**. The lines need not be all lines of the
program. -/
theorem encodeLines_snd {offset : Nat} {back : List Line}
    (places : context.Places (passed ++ (lines ++ back))) :
    (context.encodeLines offset (extent context.profile (passed.map Line.statement)) lines).2 =
      match lines.findSome? context.refusal? with
      | some failure => .error failure
      | none => .ok () := by
  induction lines generalizing passed offset with
  | nil => rfl
  | cons line lines ih =>
      have rest := @ih (passed ++ [line])
      rw [List.cons_append] at places
      by_cases instruction : line.statement.isInstruction = true
      · cases read : context.encodeLine offset line with
        | error failure =>
            rw [List.findSome?_cons_of_isSome (by
                rw [refusal?_of_encodeLine_error instruction read]; rfl),
              refusal?_of_encodeLine_error instruction read,
              encodeLines_cons_of_encodeLine_error instruction read]
        | ok encoded =>
            rw [List.findSome?_cons_of_isNone (by rw [refusal?_of_encodeLine read]; rfl),
              encodeLines_cons_of_encodeLine instruction read]
            exact rest places.pass
      · rw [List.findSome?_cons_of_isNone (by
            rw [refusal?_of_not_isInstruction instruction]; rfl),
          encodeLines_cons_of_not_isInstruction places instruction]
        exact rest places.pass

/-- The first hit along a list is at an index, and there is none in front of it. -/
theorem exists_index_of_findSome? {α β : Type} {f : α → Option β} {parts : List α} {hit : β}
    (found : parts.findSome? f = some hit) :
    ∃ (i : Nat) (part : α), parts[i]? = some part ∧ f part = some hit ∧
      ∀ j < i, ∀ other, parts[j]? = some other → f other = none := by
  obtain ⟨front, part, back, rfl, here, before⟩ := List.findSome?_eq_some_iff.mp found
  refine ⟨front.length, part, ?_, here, ?_⟩
  · rw [List.getElem?_append_right (Nat.le_refl _), Nat.sub_self]
    rfl
  · intro j short other same
    rw [List.getElem?_append_left short] at same
    exact before _ (List.mem_of_getElem? same)

/-! ### Assemblies -/

variable {profile : Profile} {maxLabels maxProgramSize : Int} {source : Text}

/-- **Reading and placing** do not depend on the profile: a program text fails in them under every
profile, for the same reason, or under none. -/
theorem assemble_phases (maxLabels : Int) (source : Text) :
    (∃ failure, ∀ (profile : Profile) (maxProgramSize : Int),
        (assemble profile source maxLabels maxProgramSize).result = .error failure) ∨
      FreeOf (fun _ => NamingDefect) (statements source) ∧
        FreeOf (PlacingDefect maxLabels) (statements source) := by
  -- The line that is named is that of an index, and there is only one text at an index.
  have settle {i : Nat} {cause : SourceError.Cause}
      (fails : ∀ (profile : Profile) (maxProgramSize : Int),
        ∃ text, (Text.lines source)[i]? = some text ∧
          (assemble profile source maxLabels maxProgramSize).result =
            .error (Place.reject ⟨i + 1, text⟩ cause)) :
      ∃ failure, ∀ (profile : Profile) (maxProgramSize : Int),
        (assemble profile source maxLabels maxProgramSize).result = .error failure := by
    obtain ⟨text, stands, -⟩ := fails .default 0
    refine ⟨Place.reject ⟨i + 1, text⟩ cause, fun profile maxProgramSize => ?_⟩
    obtain ⟨other, found, rejected⟩ := fails profile maxProgramSize
    rw [stands] at found
    cases found
    exact rejected
  rcases freeOf_or_firstAt (fun _ => NamingDefect) (statements source) with named | ⟨i, cause, bad⟩
  · rcases freeOf_or_firstAt (PlacingDefect maxLabels) (statements source) with
      placed | ⟨i, cause, bad⟩
    · exact .inr ⟨named, placed⟩
    · exact .inl (settle fun _ _ => assemble_of_placingDefect named bad)
  · exact .inl (settle fun _ _ => assemble_of_namingDefect bad)

section Placed

variable (named : FreeOf (fun _ => NamingDefect) (statements source))
  (placed : FreeOf (PlacingDefect maxLabels) (statements source))

include named placed

/-- A program text that is read and placed **fails** exactly for its first refusal. The lines behind
it do not matter, whatever is wrong with them. -/
theorem assemble_eq_error_iff :
    (assemble profile source maxLabels maxProgramSize).result = .error failure ↔
      (sourceLines source).findSome?
        (Context.placing profile maxLabels (sourceLines source)).refusal? = some failure := by
  have places := @places_placing profile _ _ placed
  rw [← List.append_nil (sourceLines source)] at places
  have outcome := @encodeLines_snd (.placing profile maxLabels (sourceLines source)) []
    (sourceLines source) 0 [] (by simpa using places)
  rw [assemble_of_placed named placed]
  have start : extent (Context.placing profile maxLabels (sourceLines source)).profile
      (([] : List Line).map Line.statement) = 0 := rfl
  rw [start] at outcome
  simp only [outcome]
  cases (sourceLines source).findSome?
    (Context.placing profile maxLabels (sourceLines source)).refusal? with
  | none => exact ⟨nofun, nofun⟩
  | some other =>
      simp only [Except.map, Except.error.injEq, Option.some.injEq]

/-- A program text that is read and placed succeeds exactly without a refusal. -/
theorem exists_context_iff :
    (∃ context, (assemble profile source maxLabels maxProgramSize).result = .ok context) ↔
      (sourceLines source).findSome?
        (Context.placing profile maxLabels (sourceLines source)).refusal? = none := by
  have errors (failure : Failure) :=
    @assemble_eq_error_iff failure profile _ maxProgramSize _ named placed
  cases result : (assemble profile source maxLabels maxProgramSize).result with
  | ok context =>
      refine ⟨fun _ => Option.eq_none_iff_forall_ne_some.mpr fun failure found => ?_,
        fun _ => ⟨context, rfl⟩⟩
      rw [← errors, result] at found
      cases found
  | error failure =>
      refine ⟨nofun, fun none => ?_⟩
      rw [(errors failure).mp result] at none
      cases none

/-- An assembly that is refused in the second pass stops at the first line that is. -/
theorem stopsAt_of_refusal? {i : Nat}
    (here : (sourceLines source)[i]? = some line)
    (refused : (Context.placing profile maxLabels (sourceLines source)).refusal? line =
      some failure)
    (before : ∀ j < i, ∀ other, (sourceLines source)[j]? = some other →
      (Context.placing profile maxLabels (sourceLines source)).refusal? other = none) :
    StopsAt profile maxLabels source i failure := by
  obtain ⟨context, result⟩ := @firstPass_of_placed profile _ _ placed
  refine ⟨_, _, readSource_of_freeOf named, result, ?_⟩
  have outcome (k : Nat) := (secondPass_eq (.placing profile maxLabels (sourceLines source))
    ((sourceLines source).take k)).2
  have places := @places_placing profile _ _ placed
  have verdict (k : Nat) := @encodeLines_snd (.placing profile maxLabels (sourceLines source)) []
    ((sourceLines source).take k) 0 ((sourceLines source).drop k)
    (by rwa [List.take_append_drop])
  have front : ((sourceLines source).take i).findSome?
      (Context.placing profile maxLabels (sourceLines source)).refusal? = none := by
    rw [List.findSome?_eq_none_iff]
    intro other inside
    obtain ⟨j, short, rfl⟩ := List.mem_take_iff_getElem.mp inside
    exact before j (by omega) _ (List.getElem?_eq_getElem _)
  rw [context]
  constructor
  · have done := verdict i
    rw [front] at done
    exact ⟨_, (outcome i).trans (congrArg (Except.map _) done)⟩
  · have stopped := verdict (i + 1)
    rw [List.take_add_one, here, List.findSome?_append, front, Option.none_or, Option.toList,
      List.findSome?_singleton, refused] at stopped
    rw [outcome (i + 1), List.take_add_one, here]
    exact congrArg (Except.map _) stopped

end Placed

/-- In a program text that is assembled all numbers can be worked out. So what assembles needs
no bound on its digits. -/
theorem readable_of_assembled {context : Context}
    (assembled : (assemble profile source maxLabels maxProgramSize).result = .ok context) :
    ∀ statement ∈ statements source, statement.Readable := by
  obtain ⟨program, assembles⟩ := exists_assembles assembled
  have clean := List.findSome?_eq_none_iff.mp
    ((exists_context_iff assembles.named assembles.placed).mp ⟨context, assembled⟩)
  rw [← map_statement_sourceLines, List.forall_mem_map]
  exact fun line inside =>
    Statement.readable_of_refusal? (clean line inside) (unbroken_sourceLines source line inside)

end ByteMachine
