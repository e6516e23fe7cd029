import ByteMachine.Assembler
import ByteMachine.Proofs.Assembly.Emission
import ByteMachine.Proofs.Assembly.Placing
import ByteMachine.Proofs.Source.Statement

/-!
# What an assembly comes to

The three phases of an assembly put together: reading the lines, placing the labels, encoding
the instructions. Each phase goes over all lines before the next one begins. So a naming defect
anywhere is reported before any placing defect, and the encoding of a program is worth talking
about only where there is neither.

`Assembles` describes an assembly that succeeds: the program text writes a list of
instructions, and the context is that of the first pass with these laid out one behind the
other.

## Main results

* `assemble_of_namingDefect`, `assemble_of_placingDefect`, `assemble_of_placed`: the phases.
* `exists_assembles`: what an assembly that succeeds leaves behind.
* `assemble_cases`: how an assembly without naming and placing defects ends.
-/

namespace ByteMachine

/-- The context that the **first pass** over lines leaves behind: their labels are declared, and
nothing is emitted. -/
def Context.placing (profile : Profile) (maxLabels : Int) (lines : List Line) : Context :=
  { profile, maxLabels, labels := placements profile 0 lines }

variable {profile : Profile} {maxLabels maxProgramSize : Int} {source : Text}

/-! ### The phases -/

/-- The lines of a program text are numbered from one on, without gaps. -/
theorem numbered_sourceLines (source : Text) : Numbered (sourceLines source) := by
  intro i line found
  rw [sourceLines, getElem?_numberedFrom, Option.map_eq_some_iff] at found
  obtain ⟨text, -, rfl⟩ := found
  exact Int.add_comm 1 i

theorem unbroken_sourceLines (source : Text) : ∀ line ∈ sourceLines source, line.Unbroken :=
  fun _ inside _ _ stated => unbroken_of_mem_sourceLines inside stated

/-- The text of a line of a program text stands at its index, and its number is one more. -/
theorem place_of_getElem?_sourceLines {line : Line} {i : Nat}
    (found : (sourceLines source)[i]? = some line) :
    ∃ text, (Text.lines source)[i]? = some text ∧ line.place = ⟨i + 1, text⟩ := by
  rw [sourceLines, getElem?_numberedFrom, Option.map_eq_some_iff] at found
  obtain ⟨text, found, rfl⟩ := found
  exact ⟨text, found, congrArg (Place.mk · text) (Int.add_comm 1 i)⟩

/-- The first pass leaves the context and has the result of placing the labels. Beside that it only
logs. -/
theorem firstPass_eq (context : Context) (lines : List Line) :
    (context.firstPass lines).context = (context.placeLabels 0 lines).1 ∧
      (context.firstPass lines).result = (context.placeLabels 0 lines).2 := by
  rw [Context.firstPass]
  rcases context.placeLabels 0 lines with ⟨placed, ⟨⟩ | ⟨⟩⟩ <;> exact ⟨rfl, rfl⟩

/-- The second pass extends the context by the lines encoded, and its result is the
program then. -/
theorem secondPass_eq (context : Context) (lines : List Line) :
    let encoded := context.encodeLines context.program.length 0 lines
    (context.secondPass lines).context = context.extend encoded.1 ∧
      (context.secondPass lines).result =
        encoded.2.map fun _ => (context.extend encoded.1).program := by
  rw [Context.secondPass]
  rcases context.encodeLines context.program.length 0 lines with ⟨encoded, ⟨⟩ | ⟨⟩⟩ <;>
    exact ⟨rfl, rfl⟩

/-- Both passes over lines that are placed come to encoding these lines. -/
theorem assembleLines_of_firstPass {empty placed : Context} {address : Nat} {lines : List Line}
    (left : (empty.firstPass lines).context = placed)
    (done : (empty.firstPass lines).result = .ok address) :
    (assembleLines empty maxProgramSize lines).result =
      let encoded := placed.encodeLines placed.program.length 0 lines
      encoded.2.map fun _ => placed.extend encoded.1 := by
  obtain ⟨context, result⟩ := secondPass_eq placed lines
  simp only [assembleLines, done, left, result, context]
  cases (placed.encodeLines placed.program.length 0 lines).2 <;> rfl

theorem assembleLines_of_firstPass_error {empty : Context} {lines : List Line}
    {failure : Failure} (failed : (empty.firstPass lines).result = .error failure) :
    (assembleLines empty maxProgramSize lines).result = .error failure := by
  simp only [assembleLines, failed]

/-- A program text with a **naming defect** is not assembled, for the first one. Nothing else of the
text is looked at. -/
theorem assemble_of_namingDefect {i : Nat} {cause : SourceError.Cause}
    (bad : FirstAt (fun _ => NamingDefect) (statements source) i cause) :
    ∃ text, (Text.lines source)[i]? = some text ∧
      (assemble profile source maxLabels maxProgramSize).result =
        .error (Place.reject ⟨i + 1, text⟩ cause) := by
  obtain ⟨text, found, refused⟩ := readSource_of_firstAt bad
  exact ⟨text, found, by rw [assemble, refused]⟩

/-- A program text with a **placing defect** and without naming defects is not assembled, for
the first placing defect. -/
theorem assemble_of_placingDefect {i : Nat} {cause : SourceError.Cause}
    (named : FreeOf (fun _ => NamingDefect) (statements source))
    (bad : FirstAt (PlacingDefect maxLabels) (statements source) i cause) :
    ∃ text, (Text.lines source)[i]? = some text ∧
      (assemble profile source maxLabels maxProgramSize).result =
        .error (Place.reject ⟨i + 1, text⟩ cause) := by
  have numbered : Numbered ([] ++ sourceLines source) := numbered_sourceLines source
  rw [← map_statement_sourceLines] at bad
  obtain ⟨line, found, refused⟩ :=
    @placeLabels_of_firstAt { profile, maxLabels } [] (sourceLines source) i cause rfl numbered bad
  obtain ⟨text, stands, place⟩ := place_of_getElem?_sourceLines found
  refine ⟨text, stands, ?_⟩
  rw [assemble, readSource_of_freeOf named, ← place]
  exact assembleLines_of_firstPass_error ((firstPass_eq _ _).2.trans refused)

/-- The first pass over a program text without placing defects: it leaves the table of the
layout, and its result is the extent of the text. -/
theorem firstPass_of_placed (placed : FreeOf (PlacingDefect maxLabels) (statements source)) :
    let first := Context.firstPass { profile, maxLabels } (sourceLines source)
    first.context = Context.placing profile maxLabels (sourceLines source) ∧
      first.result = .ok (extent profile (statements source)) := by
  rw [← map_statement_sourceLines] at placed ⊢
  have first := @placeLabels_of_freeOf { profile, maxLabels } [] (sourceLines source) rfl placed
  simp only [List.nil_append] at first
  obtain ⟨context, result⟩ := firstPass_eq { profile, maxLabels } (sourceLines source)
  exact ⟨context.trans (congrArg Prod.fst first), result.trans (congrArg Prod.snd first)⟩

/-- A program text without naming and placing defects is assembled by encoding its lines, in the
context of its layout. -/
theorem assemble_of_placed (named : FreeOf (fun _ => NamingDefect) (statements source))
    (placed : FreeOf (PlacingDefect maxLabels) (statements source)) :
    (assemble profile source maxLabels maxProgramSize).result =
      let context := Context.placing profile maxLabels (sourceLines source)
      let encoded := context.encodeLines 0 0 (sourceLines source)
      encoded.2.map fun _ => context.extend encoded.1 := by
  obtain ⟨context, result⟩ := @firstPass_of_placed profile _ _ placed
  rw [assemble, readSource_of_freeOf named]
  exact assembleLines_of_firstPass context result

/-! ### Assemblies that succeed -/

/-- An assembly succeeds, with a context of which something holds, if working it out says
so. -/
theorem exists_context_of_any {assembly : Assembly} {p : Context → Bool}
    (worked : assembly.result.toOption.any p = true) :
    ∃ context, assembly.result = .ok context ∧ p context = true := by
  cases result : assembly.result with
  | error failure =>
      rw [result] at worked
      cases worked
  | ok context =>
      rw [result] at worked
      exact ⟨context, rfl, worked⟩

/-- The program text writes a program, and the context is that of its **assembly**. All that is
known of a success follows from this. -/
structure Assembles (profile : Profile) (maxLabels : Int) (source : Text)
    (program : List Written) (context : Context) : Prop where
  named : FreeOf (fun _ => NamingDefect) (statements source)
  placed : FreeOf (PlacingDefect maxLabels) (statements source)
  encodes : List.Forall₂ (Encodes (.placing profile maxLabels (sourceLines source)))
    (instructionLines (sourceLines source)) program
  context_eq : context =
    let placing := Context.placing profile maxLabels (sourceLines source)
    placing.extend (layOut placing 0 (instructionLines (sourceLines source)) program)

/-- The context of the first pass places the lines, if there is no placing defect. -/
theorem places_placing (placed : FreeOf (PlacingDefect maxLabels) (statements source)) :
    (Context.placing profile maxLabels (sourceLines source)).Places ([] ++ sourceLines source) where
  labels := rfl
  distinct := by
    rw [List.nil_append, map_statement_sourceLines]
    exact (freeOf_placingDefect_iff.mp placed).1

/-- How the **encoding** of a program text ends that has no naming and no placing defect: it is
assembled; or some line is refused for its defect; or some number cannot be worked out. -/
theorem assemble_cases (profile : Profile) (maxProgramSize : Int)
    (named : FreeOf (fun _ => NamingDefect) (statements source))
    (placed : FreeOf (PlacingDefect maxLabels) (statements source)) :
    (∃ program context, Assembles profile maxLabels source program context ∧
        (assemble profile source maxLabels maxProgramSize).result = .ok context) ∨
      (∃ line ∈ sourceLines source, ∃ failure,
        LineDefect (.placing profile maxLabels (sourceLines source)) line failure ∧
          (assemble profile source maxLabels maxProgramSize).result = .error failure) ∨
      (∃ line ∈ sourceLines source, ¬ line.statement.Readable) ∧ ∃ count,
        (assemble profile source maxLabels maxProgramSize).result =
          .error (.tooManyDigits count) := by
  rw [assemble_of_placed named placed]
  rcases @encodeLines_cases (.placing profile maxLabels (sourceLines source)) [] _ 0
      (places_placing placed) (unbroken_sourceLines source) with
    ⟨program, encodes, done⟩ | ⟨line, inside, failure, defect, refused⟩ |
    ⟨unread, count, refused⟩
  · refine .inl ⟨program, _, ⟨named, placed, encodes, rfl⟩, ?_⟩
    have encoded : (Context.placing profile maxLabels (sourceLines source)).encodeLines 0 0
        (sourceLines source) = _ := done
    simp only [encoded]
    rfl
  · exact .inr (.inl ⟨line, inside, failure, defect, congrArg (Except.map _) refused⟩)
  · exact .inr (.inr ⟨unread, count, congrArg (Except.map _) refused⟩)

/-- An assembly that succeeds is that of a **program**: there are instructions which its lines
write, and all that is known of the result is said of these. -/
theorem exists_assembles {context : Context}
    (assembled : (assemble profile source maxLabels maxProgramSize).result = .ok context) :
    ∃ program, Assembles profile maxLabels source program context := by
  rcases freeOf_or_firstAt (fun _ => NamingDefect) (statements source) with named | ⟨i, cause, bad⟩
  · rcases freeOf_or_firstAt (PlacingDefect maxLabels) (statements source) with
      placed | ⟨i, cause, bad⟩
    · rcases assemble_cases profile maxProgramSize named placed with
        ⟨program, same, assembles, result⟩ | ⟨line, -, failure, -, result⟩ | ⟨-, count, result⟩
      · rw [result] at assembled
        cases assembled
        exact ⟨program, assembles⟩
      · rw [result] at assembled
        cases assembled
      · rw [result] at assembled
        cases assembled
    · obtain ⟨text, -, result⟩ := assemble_of_placingDefect named bad
      rw [result] at assembled
      cases assembled
  · obtain ⟨text, -, result⟩ := assemble_of_namingDefect bad
    rw [result] at assembled
    cases assembled

end ByteMachine
