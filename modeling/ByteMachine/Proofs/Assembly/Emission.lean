import ByteMachine.Proofs.Assembly.Encoding

/-!
# Emitting a program

The second pass over all lines. It never fails on a label: it meets a declaration behind lines
of the same extent as the first pass did, because both passes move by the size of each
instruction. So it fails on an instruction line only, and otherwise it lays out one written
instruction for each instruction line, every one right behind the bytes of those before it.

The laws are about the lines that are left at some point of a pass, behind the lines `passed`.
The address of the pass is the extent of `passed`; its offset in the program is free, since
under fixed sizing it is another one.

## Main results

* `checkLabel_of_places`: the second pass meets every label where the first pass placed it.
* `encodeLines_cases`: encoding lines, case by case.
-/

namespace ByteMachine

/-- The **instruction lines** among lines, in their order. The second pass makes one entry for each
of them. -/
def instructionLines (lines : List Line) : List Line :=
  lines.filter fun line => line.statement.isInstruction

/-- The instruction lines of lines that follow each other are those of the parts, one after the
other. -/
@[simp] theorem instructionLines_append (front back : List Line) :
    instructionLines (front ++ back) = instructionLines front ++ instructionLines back :=
  List.filter_append front back

/-- An instruction line in front is the first of the instruction lines. -/
theorem instructionLines_cons_of_isInstruction {line : Line} (lines : List Line)
    (instruction : line.statement.isInstruction = true) :
    instructionLines (line :: lines) = line :: instructionLines lines :=
  List.filter_cons_of_pos instruction

theorem instructionLines_cons_of_not_isInstruction {line : Line} (lines : List Line)
    (plain : ¬ line.statement.isInstruction = true) :
    instructionLines (line :: lines) = instructionLines lines :=
  List.filter_cons_of_neg plain

/-- The written instructions **laid out**, one for each of the lines, the first of them at
`offset`. -/
def layOut (context : Context) (offset : Nat) : List Line → List Written → List Encoded
  | line :: lines, written :: program =>
    written.encodedAt context offset line.place ::
      layOut context (offset + written.mnemonic.length context.profile) lines program
  | _, _ => []

/-- A context **places** lines when its label table is theirs and no name is declared twice. The
first pass leaves such a context behind. -/
structure Context.Places (context : Context) (lines : List Line) : Prop where
  labels : context.labels = placements context.profile 0 lines
  distinct : (declaredNames (lines.map Line.statement)).Nodup

variable {context : Context} {passed lines : List Line} {line : Line} {offset : Nat}

/-! ### One line -/

/-- A label that is declared behind lines was not declared by them, since no name is declared
twice. -/
theorem Context.Places.not_mem {name : Text} (places : context.Places (passed ++ line :: lines))
    (declares : line.statement = .label name) : .label name ∉ passed.map Line.statement := by
  have distinct := places.distinct
  rw [List.map_append, declaredNames_append, List.map_cons, declares] at distinct
  intro declared
  exact (List.nodup_append.mp distinct).2.2 name (mem_declaredNames_iff.mpr declared) name
    List.mem_cons_self rfl

/-- The second pass meets a label at the address at which it is placed, so its check goes well. This
is where the two passes have to agree on the sizes of lines. -/
theorem checkLabel_of_places {name : Text} (places : context.Places (passed ++ line :: lines))
    (declares : line.statement = .label name) (place : Place) :
    context.checkLabel (extent context.profile (passed.map Line.statement)) name place =
      .ok () := by
  have declared : .label name ∈ (passed ++ line :: lines).map Line.statement := by
    rw [← declares]
    exact List.mem_map_of_mem (by simp)
  obtain ⟨_, -, looked⟩ := Context.label?_of_placements places.labels declared
  rw [List.map_append, List.map_cons, declares, addressOf,
    beforeLabel_append_of_not_mem (places.not_mem declares), beforeLabel_cons_self,
    List.append_nil] at looked
  rw [Context.checkLabel, looked]
  exact if_pos rfl

/-- The extent behind one more line is larger by the size of that line. -/
theorem extent_map_concat (profile : Profile) (passed : List Line) (line : Line) :
    extent profile ((passed ++ [line]).map Line.statement) =
      extent profile (passed.map Line.statement) + line.statement.size profile := by
  rw [List.map_append, extent_append]
  rfl

/-- The second pass goes over a line that is no instruction, whatever it meets behind that. -/
theorem encodeLines_cons_of_not_isInstruction {rest : List Line}
    (places : context.Places (passed ++ line :: lines))
    (plain : ¬ line.statement.isInstruction = true) :
    context.encodeLines offset (extent context.profile (passed.map Line.statement))
        (line :: rest) =
      context.encodeLines offset
        (extent context.profile ((passed ++ [line]).map Line.statement)) rest := by
  rw [extent_map_concat, Context.encodeLines]
  cases stated : line.statement with
  | blank => rfl
  | label name =>
      simp only [checkLabel_of_places places stated]
      rfl
  | instruction _ _ => rw [stated] at plain; exact absurd rfl plain

/-- The second pass encodes an instruction line and goes on behind its bytes. The address grows by
the size of the line, which may be another number. -/
theorem encodeLines_cons_of_encodeLine {encoded : Encoded}
    (instruction : line.statement.isInstruction = true)
    (read : context.encodeLine offset line = .ok encoded) :
    context.encodeLines offset (extent context.profile (passed.map Line.statement))
        (line :: lines) =
      let rest := context.encodeLines (offset + encoded.entry.bytes.length)
        (extent context.profile ((passed ++ [line]).map Line.statement)) lines
      (encoded :: rest.1, rest.2) := by
  obtain ⟨word, tokens, writes⟩ := Statement.exists_of_isInstruction instruction
  simp only [extent_map_concat, Context.encodeLines, writes, read, Context.sizeOf_instruction]

/-- The second pass stops at an instruction line that is refused, and what stands behind the line
does not matter. -/
theorem encodeLines_cons_of_encodeLine_error {address : Nat} {failure : Failure}
    (instruction : line.statement.isInstruction = true)
    (refused : context.encodeLine offset line = .error failure) :
    context.encodeLines offset address (line :: lines) = ([], .error failure) := by
  obtain ⟨word, tokens, writes⟩ := Statement.exists_of_isInstruction instruction
  simp only [Context.encodeLines, writes, refused]

/-- The bytes of a written instruction are as many as the instruction table has it under the
profile. -/
@[simp] theorem length_bytes_encodedAt (context : Context) (offset : Nat) (place : Place)
    (written : Written) :
    (written.encodedAt context offset place).entry.bytes.length =
      written.mnemonic.length context.profile := by
  rw [Written.encodedAt, Instruction.length_bytes, Written.length_encode]

/-- The context still places the lines when one of them has been passed. This is the step of every
induction along the second pass. -/
theorem Context.Places.pass (places : context.Places (passed ++ line :: lines)) :
    context.Places ((passed ++ [line]) ++ lines) := by
  rwa [List.append_assoc]

/-! ### All lines -/

/-- **Encoding lines**, case by case: all instruction lines write instructions, which are laid
out; or some line is refused for its defect; or some number cannot be worked out. -/
theorem encodeLines_cases (places : context.Places (passed ++ lines))
    (unbroken : ∀ line ∈ lines, line.Unbroken) :
    (∃ program, List.Forall₂ (Encodes context) (instructionLines lines) program ∧
        context.encodeLines offset (extent context.profile (passed.map Line.statement)) lines =
          (layOut context offset (instructionLines lines) program, .ok ())) ∨
      (∃ line ∈ lines, ∃ failure, LineDefect context line failure ∧
        (context.encodeLines offset (extent context.profile (passed.map Line.statement))
          lines).2 = .error failure) ∨
      (∃ line ∈ lines, ¬ line.statement.Readable) ∧ ∃ count,
        (context.encodeLines offset (extent context.profile (passed.map Line.statement))
          lines).2 = .error (.tooManyDigits count) := by
  -- Address and offset move apart under fixed sizing, so both are left free.
  induction lines generalizing passed offset with
  | nil => exact .inl ⟨[], .nil, rfl⟩
  | cons line lines ih =>
      rw [List.forall_mem_cons] at unbroken
      by_cases instruction : line.statement.isInstruction = true
      · rw [instructionLines_cons_of_isInstruction lines instruction]
        rcases encodeLine_cases context offset instruction unbroken.1 with
          ⟨written, encodes, read⟩ | ⟨failure, defect, refused⟩ | ⟨unread, count, refused⟩
        · rw [encodeLines_cons_of_encodeLine instruction read]
          rcases @ih (passed ++ [line])
              (offset + (written.encodedAt context offset line.place).entry.bytes.length)
              places.pass unbroken.2 with
            ⟨program, all, rest⟩ | ⟨bad, inside, failure, defect, rest⟩ |
            ⟨⟨bad, inside, unread⟩, count, rest⟩
          · refine .inl ⟨written :: program, .cons encodes all, ?_⟩
            rw [rest, layOut, length_bytes_encodedAt]
          · exact .inr (.inl ⟨bad, .tail _ inside, failure, defect, rest⟩)
          · exact .inr (.inr ⟨⟨bad, .tail _ inside, unread⟩, count, rest⟩)
        · rw [encodeLines_cons_of_encodeLine_error instruction refused]
          exact .inr (.inl ⟨line, .head _, failure, defect, rfl⟩)
        · rw [encodeLines_cons_of_encodeLine_error instruction refused]
          exact .inr (.inr ⟨⟨line, .head _, unread⟩, count, rfl⟩)
      · rw [instructionLines_cons_of_not_isInstruction lines instruction,
          encodeLines_cons_of_not_isInstruction places instruction]
        rcases @ih (passed ++ [line]) offset places.pass unbroken.2 with
          done | ⟨bad, inside, rest⟩ | ⟨⟨bad, inside, unread⟩, rest⟩
        · exact .inl done
        · exact .inr (.inl ⟨bad, .tail _ inside, rest⟩)
        · exact .inr (.inr ⟨⟨bad, .tail _ inside, unread⟩, rest⟩)

/-- A line with a defect is an instruction line: blank lines and declarations are never refused
here. -/
theorem LineDefect.isInstruction {failure : Failure} (defect : LineDefect context line failure) :
    line.statement.isInstruction = true := by
  cases defect with
  | unknown writes _ => rw [writes]; rfl
  | operands writes _ => rw [writes]; rfl
  | target writes _ _ =>
      obtain ⟨tokens, writes, -⟩ := writes
      rw [writes]
      rfl

/-- The second pass is refused for the first line with a defect, if all numbers can be
worked out. -/
theorem encodeLines_of_lineDefect {front back : List Line} {failure : Failure}
    (split : lines = front ++ line :: back) (places : context.Places (passed ++ lines))
    (unbroken : ∀ other ∈ lines, other.Unbroken)
    (readable : ∀ other ∈ lines, other.statement.Readable)
    (clean : ∀ line ∈ front, ∀ failure, ¬ LineDefect context line failure)
    (defect : LineDefect context line failure) :
    (context.encodeLines offset (extent context.profile (passed.map Line.statement)) lines).2 =
      .error failure := by
  subst split
  induction front generalizing passed offset with
  | nil =>
      rw [List.nil_append] at unbroken readable
      rw [List.forall_mem_cons] at unbroken readable
      have refused := @encodeLine_of_lineDefect _ _ offset _ defect readable.1 unbroken.1
      rw [List.nil_append, encodeLines_cons_of_encodeLine_error defect.isInstruction refused]
  | cons head front ih =>
      rw [List.cons_append, List.forall_mem_cons] at unbroken readable
      rw [List.forall_mem_cons] at clean
      rw [List.cons_append] at places ⊢
      by_cases instruction : head.statement.isInstruction = true
      · rcases encodeLine_cases context offset instruction unbroken.1 with
          ⟨written, -, read⟩ | ⟨early, wrong, -⟩ | ⟨unread, -⟩
        · rw [encodeLines_cons_of_encodeLine instruction read]
          exact ih clean.2 places.pass unbroken.2 readable.2
        · exact absurd wrong (clean.1 early)
        · exact absurd readable.1 unread
      · rw [encodeLines_cons_of_not_isInstruction places instruction]
        exact ih clean.2 places.pass unbroken.2 readable.2

end ByteMachine
