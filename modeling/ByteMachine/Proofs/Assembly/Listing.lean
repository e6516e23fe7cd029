import ByteMachine.Proofs.Assembly.Profiles

/-!
# What the listing and the branch sites say

An assembly leaves two records of its image behind: the listing, which cuts the image into the bytes
of the instruction lines, and the branch sites, which point behind the branches. The offset of an
entry, the address of a site and the length of an instruction are worked out at three places. They
agree because all of them are sums of lengths in the instruction table, over the lines before.

## Main results

* `Assembles.forall₂_addsUp`: the entries of the listing, line by line.
* `Assembles.forall₂_marks`: the branch sites, branch line by branch line.
* `listing_describes_image`: both records of an assembly that succeeds.
-/

namespace ByteMachine

/-- A branch site **marks** a branch line: it has the number of the line and the label that the line
names, which is in the label table. Its address is right behind the bytes of the entry of the line,
the last of which is the address of the label if targets are carried. -/
structure BranchSite.Marks (profile : Profile) (context : Context) (line : Line)
    (site : BranchSite) : Prop where
  lineNum_eq : site.lineNum = line.place.lineNum
  names : line.statement.goesTo? = some site.label
  lands : ∃ entry ∈ context.listing, entry.place = line.place ∧
    site.address = entry.address + entry.bytes.length ∧
    ∃ label ∈ context.labels, label.name = site.label ∧
      (profile.encodesTargets = true →
        entry.bytes.getLast?.map (fun byte => (byte.toNat : Int)) = some label.address)

/-- An entry of the listing **adds up** for an instruction line: it shows the place of the line and
has as many bytes as an instruction of its mnemonic takes up. -/
structure ListingEntry.AddsUp (profile : Profile) (line : Line) (entry : ListingEntry) : Prop where
  place_eq : entry.place = line.place
  length_eq : ∃ mnemonic tokens, line.statement = .instruction (Mnemonic.name mnemonic) tokens ∧
    entry.bytes.length = mnemonic.length profile

variable {profile : Profile} {maxLabels maxProgramSize : Int} {source : Text} {context : Context}
  {program : List Written} {lines : List Line} {offset : Nat}

/-! ### Branch lines -/

theorem Statement.isInstruction_of_isBranch {statement : Statement}
    (branch : statement.isBranch = true) : statement.isInstruction = true := by
  cases statement with
  | instruction _ _ => rfl
  | blank => cases branch
  | label _ => cases branch

/-- The branch lines are found among the instruction lines, in the same order. -/
theorem filter_isBranch_instructionLines (lines : List Line) :
    (instructionLines lines).filter (fun line => line.statement.isBranch) =
      lines.filter fun line => line.statement.isBranch := by
  rw [instructionLines, List.filter_filter]
  refine List.filter_congr fun line _ => ?_
  cases branch : line.statement.isBranch with
  | false => rfl
  | true => exact Statement.isInstruction_of_isBranch branch

/-- A branch that carries its target carries it last, behind its opcode and its other
operands. -/
theorem Written.getLast?_bytes_encode {written : Written} {name : Text}
    (goes : written.label? = some name) (byteOf : Text → UInt8) :
    (written.encode true byteOf).bytes.getLast? = some (byteOf name) := by
  cases written with
  | branchIf _ _ _ =>
      cases goes
      rfl
  | jump _ =>
      cases goes
      rfl
  | _ => cases goes

/-- Each of the lines is laid out at its index, behind the size of the program before it. -/
theorem forall₂_layOut (same : lines.length = program.length) :
    List.Forall₂ (fun line encoded => ∃ (i : Nat) (written : Written), lines[i]? = some line ∧
        program[i]? = some written ∧ encoded = written.encodedAt context
          (offset + codeSize context.profile (program.take i)) line.place)
      lines (layOut context offset lines program) := by
  have length := same.trans (@length_layOut context offset _ _ same).symm
  refine List.forall₂_iff_get.mpr ⟨length, fun i short short' => ?_⟩
  have here := List.getElem?_eq_getElem short
  have there := List.getElem?_eq_getElem (same ▸ short : i < program.length)
  have laid := @getElem?_layOut context offset _ _ _ _ _ here there
  exact ⟨i, _, here, there, (List.getElem?_eq_some_iff.mp laid).2⟩

/-! ### Assemblies -/

namespace Assembles

variable (assembles : Assembles profile maxLabels source program context)

include assembles

/-- Every entry begins where the bytes of the entries before it end, so there is no gap between
them. -/
theorem address_eq {entry : ListingEntry} {i : Nat} (found : context.listing[i]? = some entry) :
    entry.address = ((context.listing.take i).flatMap ListingEntry.bytes).length := by
  rw [← assembles.boundary_eq_length, Context.boundary, found]

/-- The instruction line of an index writes the instruction of that index. -/
theorem writes_of_getElem? {line : Line} {written : Written} {i : Nat}
    (here : (instructionLines (sourceLines source))[i]? = some line)
    (there : program[i]? = some written) : line.statement.Writes written := by
  obtain ⟨short, rfl⟩ := List.getElem?_eq_some_iff.mp here
  obtain ⟨short', rfl⟩ := List.getElem?_eq_some_iff.mp there
  exact assembles.writes.get short short'

/-- The entries of the listing **add up**, line by line: each begins where the bytes of those before
it end, and the bytes of all are the image. -/
theorem forall₂_addsUp :
    List.Forall₂ (ListingEntry.AddsUp profile) (instructionLines (sourceLines source))
      context.listing := by
  have length := assembles.length_eq.trans assembles.length_listing_eq.symm
  refine List.forall₂_iff_get.mpr ⟨length, fun i short short' => ?_⟩
  have inside : i < program.length := assembles.length_eq ▸ short
  have here := List.getElem?_eq_getElem short
  have there := List.getElem?_eq_getElem inside
  obtain ⟨tokens, states, -⟩ := assembles.writes_of_getElem? here there
  obtain ⟨_, entry⟩ := List.getElem?_eq_some_iff.mp (assembles.listing_eq here there)
  rw [List.get_eq_getElem, List.get_eq_getElem, entry]
  refine ⟨rfl, _, tokens, states, ?_⟩
  rw [Instruction.length_bytes, Written.length_encode]

theorem marks {line : Line} {written : Written} {name : Text} {i : Nat}
    (here : (instructionLines (sourceLines source))[i]? = some line)
    (there : program[i]? = some written) (goes : written.label? = some name) :
    BranchSite.Marks profile context line
      ⟨name, codeSize profile (program.take i) + written.mnemonic.length profile,
        line.place.lineNum⟩ := by
  have inside := List.mem_of_getElem? there
  have names := (assembles.writes_of_getElem? here there).goesTo?_eq.trans goes
  have kept := List.mem_of_getElem? (assembles.listing_eq here there)
  obtain ⟨lineNum, looked⟩ := assembles.label?_eq (assembles.declared inside goes)
  refine ⟨rfl, names, _, kept, rfl, ?_, _, List.mem_of_find?_eq_some looked, rfl, fun carries => ?_⟩
  · rw [Instruction.length_bytes, Written.length_encode]
  · rw [carries, Written.getLast?_bytes_encode goes, Option.map_some,
      assembles.byteOf_eq carries inside goes]

/-- There is a **site** for each branch line, in order, and it marks that line: it is the address
right behind the bytes that were emitted for it. -/
theorem forall₂_marks :
    List.Forall₂ (BranchSite.Marks profile context)
      ((sourceLines source).filter fun line => line.statement.isBranch) context.sites := by
  have sites : context.sites = (layOut (.placing profile maxLabels (sourceLines source)) 0
      (instructionLines (sourceLines source)) program).filterMap Encoded.site := by
    rw [assembles.context_eq]
    rfl
  have laid := @forall₂_layOut (.placing profile maxLabels (sourceLines source)) program
    (instructionLines (sourceLines source)) 0 assembles.length_eq
  rw [sites, ← filter_isBranch_instructionLines, ← List.filterMap_eq_filter]
  refine List.rel_filterMap ?_ laid
  rintro line encoded ⟨i, written, here, there, rfl⟩
  have branch := (assembles.writes_of_getElem? here there).isBranch_eq
  cases goes : written.label? with
  | none =>
      rw [goes] at branch
      simp only [Option.guard, Written.encodedAt, goes, branch, Option.map_none, Option.isSome_none]
      exact .none
  | some name =>
      rw [goes] at branch
      simp only [Option.guard, Written.encodedAt, goes, branch, Option.map_some,
        Option.isSome_some, if_true]
      have marks := assembles.marks here there goes
      rw [Instruction.length_bytes, Written.length_encode, Nat.zero_add]
      exact .some marks

end Assembles

/-- **What the listing and the branch sites say.** An assembly that succeeds has read the lines of
the text, each with its number and its text. The listing has an entry for each instruction line, in
order, with the place of the line and as many bytes as the instruction takes up, and each entry
begins where the bytes of those before it end; all bytes together are the image. There is a branch
site for each branch line, in order, with the number of the line and the label that it names. The
label is in the table, the site is right behind the entry of the line, and if targets are carried
the last byte of the entry is the address of the label. -/
theorem listing_describes_image
    (assembled : (assemble profile source maxLabels maxProgramSize).result = .ok context) :
    ∃ lines, readSource source = .ok lines ∧
      (∀ (i : Nat) (line : Line), lines[i]? = some line →
        ∃ text, (Text.lines source)[i]? = some text ∧ line.place = ⟨i + 1, text⟩) ∧
      lines.length = (Text.lines source).length ∧
      List.Forall₂ (ListingEntry.AddsUp profile) (instructionLines lines) context.listing ∧
      (∀ (i : Nat) (entry : ListingEntry), context.listing[i]? = some entry →
        entry.address = ((context.listing.take i).flatMap ListingEntry.bytes).length) ∧
      context.program = context.listing.flatMap ListingEntry.bytes ∧
      List.Forall₂ (BranchSite.Marks profile context)
        (lines.filter fun line => line.statement.isBranch) context.sites := by
  obtain ⟨program, assembles⟩ := exists_assembles assembled
  refine ⟨sourceLines source, assembles.readSource_eq, fun i line => place_of_getElem?_sourceLines,
    ?_, assembles.forall₂_addsUp, fun i entry => assembles.address_eq,
    assembles.program_eq_flatMap_listing, assembles.forall₂_marks⟩
  have count := congrArg List.length (map_statement_sourceLines source)
  rwa [List.length_map, statements, List.length_map] at count

/-- A branch to a later line and a jump back are marked in the order in which they are
written. -/
theorem exists_marks_loop :
    ∃ context lines, (assemble .resolved "top:\nIF R0, 3, end\n JMP top\nend:\nEXIT".toList 50
        256).result = .ok context ∧
      context.program = [0x05, 0x00, 0x03, 0x06, 0x06, 0x00, 0x00] ∧
      context.sites = [⟨"end".toList, 4, 2⟩, ⟨"top".toList, 6, 3⟩] ∧
      readSource "top:\nIF R0, 3, end\n JMP top\nend:\nEXIT".toList = .ok lines ∧
      List.Forall₂ (ListingEntry.AddsUp .resolved) (instructionLines lines) context.listing ∧
      List.Forall₂ (BranchSite.Marks .resolved context)
        (lines.filter fun line => line.statement.isBranch) context.sites := by
  have worked : (assemble .resolved "top:\nIF R0, 3, end\n JMP top\nend:\nEXIT".toList 50
      256).result.toOption.any (fun context =>
        context.program = [0x05, 0x00, 0x03, 0x06, 0x06, 0x00, 0x00] ∧
        context.sites = [⟨"end".toList, 4, 2⟩, ⟨"top".toList, 6, 3⟩]) = true := by
    decide +kernel
  obtain ⟨context, assembled, found⟩ := exists_context_of_any worked
  obtain ⟨program, sites⟩ := of_decide_eq_true found
  obtain ⟨lines, read, -, -, entries, -, -, marks⟩ := listing_describes_image assembled
  exact ⟨context, lines, assembled, program, sites, read, entries, marks⟩

end ByteMachine
