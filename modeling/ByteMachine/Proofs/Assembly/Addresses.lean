import ByteMachine.Proofs.Assembly.Image

/-!
# Addresses of labels

What an assembly says about the labels of a program. Both passes agree on where a label stands,
whatever the profile: an assembly never fails because they do not. Where it succeeds, the table
holds the addresses that the profile promises, three bytes for each instruction line in front of
the declaration, or the bytes that these lines really have in the image.

## Main results

* `assemble_error_not_internal`: no error of an assembly is one of the passes' own.
* `labels_exact`: that, and every address is exact.
-/

namespace ByteMachine

variable {profile : Profile} {maxLabels maxProgramSize : Int} {source : Text}
  {context : Context} {program : List Written}

/-! ### Errors -/

variable {cause : SourceError.Cause}

theorem NameDefect.kind_ne_internal {name : Text} (defect : NameDefect name cause) :
    cause.kind ≠ .internal := by
  cases defect <;> exact nofun

/-- No defect of a token is an internal error: that kind is for operands without a reader, which the
table does not have. -/
theorem TokenDefect.kind_ne_internal {token : Text} {kind : OperandKind}
    (defect : TokenDefect token kind cause) : cause.kind ≠ .internal := by
  cases defect with
  | label defect => exact defect.kind_ne_internal
  | _ => exact nofun

/-- No defect of tokens is an internal error, by induction on the tokens in front of it. -/
theorem TokensDefect.kind_ne_internal {tokens : List Text} {kinds : List OperandKind}
    (defect : TokensDefect tokens kinds cause) : cause.kind ≠ .internal := by
  induction defect with
  | here defect => exact defect.kind_ne_internal
  | later _ _ ih => exact ih

/-- No defect of an instruction is an internal error, whether it is one of its word, its operands or
its label. -/
theorem EncodingDefect.kind_ne_internal {statement : Statement} {all : List Statement}
    (defect : EncodingDefect profile all statement cause) : cause.kind ≠ .internal := by
  cases defect with
  | unknown _ => exact nofun
  | operands defect =>
      cases defect with
      | count _ => exact nofun
      | token _ defect => exact defect.kind_ne_internal
  | target _ _ defect => cases defect <;> exact nofun

/-- No error of an assembly is **internal**, and none is that of a label that only the second pass
knows. Both passes go over the same lines with the same sizes, so a label is always where it was. -/
theorem assemble_error_not_internal {failure : Failure}
    (refused : (assemble profile source maxLabels maxProgramSize).result = .error failure) :
    (∀ name, failure ≠ .unplacedLabel name) ∧
      ∀ error, failure = .rejected error → error.kind ≠ .internal := by
  rcases exists_defect_of_error refused with
    ⟨i, text, cause, -, ⟨statement, -, defect⟩, rfl⟩ | ⟨-, count, rfl⟩
  · have kind : cause.kind ≠ .internal := by
      rcases defect with defect | defect | defect
      · cases defect with
        | name defect => exact defect.kind_ne_internal
      · cases defect <;> exact nofun
      · exact defect.kind_ne_internal
    obtain ⟨-, rejected⟩ | ⟨-, unwritable⟩ := Place.reject_cases ⟨i + 1, text⟩ cause
    · rw [rejected]
      refine ⟨fun _ => nofun, ?_⟩
      rintro error ⟨⟩
      exact kind
    · rw [unwritable]
      exact ⟨fun _ => nofun, fun _ => nofun⟩
  · exact ⟨fun _ => nofun, fun _ => nofun⟩

/-! ### Addresses -/

/-- Under true sizes the result of the first pass is the size of the image, which only the second
pass makes. -/
theorem Assembles.firstPass_eq (assembles : Assembles profile maxLabels source program context)
    (exact : profile.fixedSizing = false) :
    (Context.firstPass { profile, maxLabels } (sourceLines source)).result =
      .ok context.program.length := by
  rw [(firstPass_of_placed assembles.placed).2, assembles.extent_eq_length exact]

/-- Every label of the table has a label name, since all declarations of the program text do. -/
theorem Assembles.isLabelName (assembles : Assembles profile maxLabels source program context)
    {label : Label} (inside : label ∈ context.labels) : IsLabelName label.name := by
  refine freeOf_namingDefect_iff.mp assembles.named _ (mem_declaredNames_iff.mp ?_)
  rw [← map_statement_sourceLines, ← map_name_placements profile 0, ← assembles.labels_eq]
  exact List.mem_map_of_mem inside

/-- **Addresses are exact**, for every profile. An assembly never fails because the passes differ.
If it succeeds, the listing has an entry for each instruction line and holds the bytes of the
image; the table has the declared names, each of them a label name, and each at three times the
number of instruction lines before its declaration under fixed sizing, or otherwise at the end of
the bytes of these lines, where the next instruction line begins or the image ends. Then the
result of the first pass is the size of the image. -/
theorem labels_exact (profile : Profile) (source : Text) (maxLabels maxProgramSize : Int) :
    (∀ failure, (assemble profile source maxLabels maxProgramSize).result = .error failure →
      (∀ name, failure ≠ .unplacedLabel name) ∧
        ∀ error, failure = .rejected error → error.kind ≠ .internal) ∧
    ∀ context, (assemble profile source maxLabels maxProgramSize).result = .ok context →
      ∃ lines, readSource source = .ok lines ∧
        context.listing.map ListingEntry.place = (instructionLines lines).map Line.place ∧
        context.program = context.listing.flatMap ListingEntry.bytes ∧
        context.labels.map Label.name = declaredNames (lines.map Line.statement) ∧
        (profile.fixedSizing = false →
          (Context.firstPass { profile, maxLabels } lines).result = .ok context.program.length) ∧
        ∀ label ∈ context.labels, IsLabelName label.name ∧
          ∃ front line back, lines = front ++ line :: back ∧
            line.statement = .label label.name ∧ label.lineNum = line.place.lineNum ∧
            (profile.fixedSizing = true →
              label.address = (3 * (instructionLines front).length : Nat)) ∧
            (profile.fixedSizing = false →
              label.address = context.boundary (instructionLines front).length ∧
              label.address = ((context.listing.take (instructionLines front).length).flatMap
                ListingEntry.bytes).length) := by
  refine ⟨fun failure refused => assemble_error_not_internal refused, ?_⟩
  intro context assembled
  obtain ⟨program, assembles⟩ := exists_assembles assembled
  refine ⟨sourceLines source, assembles.readSource_eq, assembles.map_place_listing,
    assembles.program_eq_flatMap_listing, ?_, assembles.firstPass_eq, ?_⟩
  · rw [assembles.labels_eq, map_name_placements]
  · intro label inside
    refine ⟨assembles.isLabelName inside, ?_⟩
    rw [assembles.labels_eq] at inside
    obtain ⟨front, line, back, split, declares, number, address⟩ :=
      exists_declaration_of_mem_placements inside
    rw [Nat.zero_add] at address
    refine ⟨front, line, back, split, declares, number, ?_, ?_⟩
    · intro fixed
      have count : (front.map Line.statement).countP Statement.isInstruction =
          (instructionLines front).length := by
        rw [List.countP_map, List.countP_eq_length_filter]
        rfl
      rw [address, extent_of_fixedSizing fixed, count]
      rfl
    · intro exact
      rw [address, assembles.extent_eq_boundary exact split, ← assembles.boundary_eq_length]
      exact ⟨rfl, rfl⟩

end ByteMachine
