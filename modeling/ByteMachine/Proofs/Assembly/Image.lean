import ByteMachine.Proofs.Assembly.Acceptance

/-!
# The image of a program

What an assembly leaves behind in its context, read off the written program: the image is the
encodings one behind the other, the listing has an entry for each instruction line, and every
instruction begins at the `codeSize` of those before it. Sizes do not depend on where labels
stand, and that is why the two passes can agree.

`Context.boundary` is where the instruction line of an index begins, the end of the image for
the index behind the last one.

## Main results

* `Assembles.program_eq`, `Assembles.listing_eq`, `Assembles.lists`: image and listing.
* `Assembles.boundary_eq`: instruction lines begin at the size of the program before them.
* `Assembles.addressOf_eq_boundary`: so does a label, under true sizes.
* `Assembles.byteOf_eq`, `Assembles.byteOf_eq_boundary`: the byte that a branch carries is the
  address of its label, which is a boundary under true sizes.
-/

namespace ByteMachine

/-- The **size** of a program: the lengths of its instructions together. It is the size of the
image, whatever sizes the first pass has counted with. -/
def codeSize (profile : Profile) : List Written → Nat
  | [] => 0
  | written :: program => written.mnemonic.length profile + codeSize profile program

/-- The **image** of a program, given the byte of each label and whether it is carried. No pass and
no table is mentioned. -/
def imageOf (targets : Bool) (byteOf : Text → UInt8) (program : List Written) : List UInt8 :=
  program.flatMap fun written => (written.encode targets byteOf).bytes

/-- Where the instruction line of an index **begins**: at the address of its entry in the listing,
or at the end of the image if there is none. -/
def Context.boundary (context : Context) (index : Nat) : Nat :=
  match context.listing[index]? with
  | some entry => entry.address
  | none => context.program.length

/-- An entry of a listing **lists** an instruction: its line writes it, and its bytes are those of
the encoding. -/
structure ListingEntry.Lists (targets : Bool) (byteOf : Text → UInt8) (entry : ListingEntry)
    (written : Written) : Prop where
  writes : (statementOf entry.place.text).Writes written
  bytes_eq : entry.bytes = (written.encode targets byteOf).bytes

/-! ### Sizes -/

/-- The size of programs that follow each other is that of both together. -/
theorem codeSize_append (profile : Profile) (front back : List Written) :
    codeSize profile (front ++ back) = codeSize profile front + codeSize profile back := by
  induction front with
  | nil => simp [codeSize]
  | cons written front ih => rw [List.cons_append, codeSize, codeSize, ih, Nat.add_assoc]

theorem length_imageOf (profile : Profile) (byteOf : Text → UInt8) (program : List Written) :
    (imageOf profile.encodesTargets byteOf program).length = codeSize profile program := by
  induction program with
  | nil => rfl
  | cons written program ih =>
      rw [imageOf, List.flatMap_cons, List.length_append, Instruction.length_bytes,
        Written.length_encode, codeSize]
      exact congrArg (_ + ·) ih

/-- Under true sizes a statement that writes an instruction has the size of that. -/
theorem Statement.Writes.size_eq {profile : Profile} {statement : Statement} {written : Written}
    (writes : statement.Writes written) (exact : profile.fixedSizing = false) :
    statement.size profile = written.mnemonic.length profile := by
  obtain ⟨tokens, rfl, -⟩ := writes
  simp only [Statement.size, Mnemonic.ofName?_name, exact, Bool.false_eq_true, if_false]

theorem Statement.Writes.isInstruction {statement : Statement} {written : Written}
    (writes : statement.Writes written) : statement.isInstruction = true := by
  obtain ⟨tokens, rfl, -⟩ := writes
  rfl

theorem Statement.size_of_not_isInstruction {profile : Profile} {statement : Statement}
    (plain : ¬ statement.isInstruction = true) : statement.size profile = 0 := by
  cases statement with
  | blank => rfl
  | label _ => rfl
  | instruction _ _ => exact absurd rfl plain

/-- Under true sizes the extent of lines is the size of the program that they write. Under fixed
sizing the two are different numbers. -/
theorem extent_eq_codeSize {profile : Profile} (exact : profile.fixedSizing = false)
    {lines : List Line} {program : List Written}
    (writes : List.Forall₂ (fun line => line.statement.Writes) (instructionLines lines) program) :
    extent profile (lines.map Line.statement) = codeSize profile program := by
  induction lines generalizing program with
  | nil =>
      cases writes
      rfl
  | cons line lines ih =>
      rw [List.map_cons, extent]
      by_cases instruction : line.statement.isInstruction = true
      · rw [instructionLines_cons_of_isInstruction lines instruction] at writes
        cases writes with
        | cons head tail => rw [head.size_eq exact, ih tail, codeSize]
      · rw [instructionLines_cons_of_not_isInstruction lines instruction] at writes
        rw [Statement.size_of_not_isInstruction instruction, ih writes, Nat.zero_add]

/-! ### Programs laid out -/

variable {context : Context} {offset : Nat} {lines : List Line} {program : List Written}

/-- What does not depend on the offset of an entry is seen in the lines and their instructions
alone. -/
theorem map_layOut {α : Type} {f : Encoded → α} {g : Line × Written → α}
    (same : ∀ offset line written,
      f (written.encodedAt context offset line.place) = g (line, written)) :
    (layOut context offset lines program).map f = (lines.zip program).map g := by
  induction program generalizing offset lines with
  | nil => cases lines <;> rfl
  | cons written program ih =>
      cases lines with
      | nil => rfl
      | cons line lines =>
          rw [layOut, List.map_cons, same, ih, List.zip_cons_cons, List.map_cons]

theorem length_layOut (same : lines.length = program.length) :
    (layOut context offset lines program).length = program.length := by
  have entries := @map_layOut context offset lines program _ (fun _ => ()) (fun _ => ())
    fun _ _ _ => rfl
  have length := congrArg List.length entries
  rwa [List.length_map, List.length_map, List.length_zip, same, Nat.min_self] at length

/-- The entry at an index stands behind the size of the program before it. -/
theorem getElem?_layOut {line : Line} {written : Written} {i : Nat}
    (here : lines[i]? = some line) (there : program[i]? = some written) :
    (layOut context offset lines program)[i]? =
      some (written.encodedAt context (offset + codeSize context.profile (program.take i))
        line.place) := by
  induction program generalizing offset lines i with
  | nil => cases there
  | cons first program ih =>
      cases lines with
      | nil => cases here
      | cons head lines =>
          cases i with
          | zero =>
              cases here
              cases there
              rfl
          | succ i =>
              rw [layOut, List.getElem?_cons_succ, List.take_succ_cons, codeSize, ← Nat.add_assoc]
              exact ih here there

/-- The first entries are those of the first lines, so that what stands behind them does not
matter. -/
theorem take_layOut (count : Nat) :
    (layOut context offset lines program).take count =
      layOut context offset (lines.take count) (program.take count) := by
  induction program generalizing offset lines count with
  | nil => cases lines <;> cases count <;> rfl
  | cons written program ih =>
      cases lines with
      | nil => cases count <;> rfl
      | cons line lines =>
          cases count with
          | zero => rfl
          | succ count => exact congrArg (_ :: ·) (ih count)

theorem flatMap_bytes_layOut (same : lines.length = program.length) :
    (layOut context offset lines program).flatMap (fun encoded => encoded.entry.bytes) =
      imageOf context.profile.encodesTargets context.byteOf program := by
  let bytes (written : Written) :=
    (written.encode context.profile.encodesTargets context.byteOf).bytes
  have entries := @map_layOut context offset lines program _ (fun encoded => encoded.entry.bytes)
    (bytes ∘ Prod.snd) fun _ _ _ => rfl
  rw [← List.map_map, List.map_snd_zip (Nat.le_of_eq same.symm)] at entries
  exact congrArg List.flatten entries

theorem map_place_layOut (same : lines.length = program.length) :
    (layOut context offset lines program).map (fun encoded => encoded.entry.place) =
      lines.map Line.place := by
  have entries := @map_layOut context offset lines program _ (fun encoded => encoded.entry.place)
    (Line.place ∘ Prod.fst) fun _ _ _ => rfl
  rwa [← List.map_map, List.map_fst_zip (Nat.le_of_eq same)] at entries

/-! ### Assembled programs -/

namespace Assembles

variable {profile : Profile} {maxLabels : Int} {source : Text}
  (assembles : Assembles profile maxLabels source program context)

include assembles

theorem readSource_eq : readSource source = .ok (sourceLines source) :=
  readSource_of_freeOf assembles.named

theorem profile_eq : context.profile = profile := by
  rw [assembles.context_eq]
  rfl

/-- The label table is that of the layout, as the first pass has left it. -/
theorem labels_eq : context.labels = placements profile 0 (sourceLines source) := by
  rw [assembles.context_eq]
  rfl

/-- Each instruction line writes its instruction of the program, one by one. -/
theorem writes : List.Forall₂ (fun line => line.statement.Writes)
    (instructionLines (sourceLines source)) program :=
  assembles.encodes.imp fun _ _ encodes => encodes.1

/-- There are as many instructions in the program as instruction lines in the text. -/
theorem length_eq : (instructionLines (sourceLines source)).length = program.length :=
  assembles.encodes.length_eq

/-- The **image** is that of the program, with the addresses of the label table: the encodings of
the instructions, one behind the other. -/
theorem program_eq : context.program = imageOf profile.encodesTargets context.byteOf program := by
  rw [assembles.context_eq]
  exact flatMap_bytes_layOut assembles.length_eq

theorem length_program_eq : context.program.length = codeSize profile program := by
  rw [assembles.program_eq, length_imageOf]

/-- Under true sizes the extent of the program text is the size of the image. -/
theorem extent_eq_length (exact : profile.fixedSizing = false) :
    extent profile (statements source) = context.program.length := by
  rw [assembles.length_program_eq, ← map_statement_sourceLines,
    extent_eq_codeSize exact assembles.writes]

theorem length_listing_eq : context.listing.length = program.length := by
  rw [assembles.context_eq]
  exact (List.length_map _).trans (length_layOut assembles.length_eq)

/-- The **entry** of an instruction line: its place, the size of the program before it, and the
bytes of its instruction. -/
theorem listing_eq {line : Line} {written : Written} {i : Nat}
    (here : (instructionLines (sourceLines source))[i]? = some line)
    (there : program[i]? = some written) :
    context.listing[i]? = some ⟨line.place, codeSize profile (program.take i),
      (written.encode profile.encodesTargets context.byteOf).bytes⟩ := by
  have laid := @getElem?_layOut (.placing profile maxLabels (sourceLines source)) 0 _ _ _ _ _
    here there
  rw [Nat.zero_add] at laid
  rw [assembles.context_eq]
  exact (List.getElem?_map ..).trans (congrArg (Option.map Encoded.entry) laid)

/-- The **listing** lists the program, entry by entry: there is one for each instruction, in order,
at the place where its bytes are. -/
theorem lists : List.Forall₂ (ListingEntry.Lists profile.encodesTargets context.byteOf)
    context.listing program := by
  refine List.forall₂_iff_get.mpr ⟨assembles.length_listing_eq, fun i short short' => ?_⟩
  have shorter : i < (instructionLines (sourceLines source)).length :=
    assembles.length_eq.symm ▸ short'
  have here := List.getElem?_eq_getElem shorter
  have writes := assembles.writes.get shorter short'
  have inside := (List.mem_filter.mp (List.mem_of_getElem? here)).1
  obtain ⟨_, entry⟩ := List.getElem?_eq_some_iff.mp
    (assembles.listing_eq here (List.getElem?_eq_getElem short'))
  rw [List.get_eq_getElem, List.get_eq_getElem] at writes ⊢
  rw [statement_eq_of_mem_sourceLines inside] at writes
  rw [entry]
  exact ⟨writes, rfl⟩

/-- The entries of the listing are those of the instruction lines, in their order. -/
theorem map_place_listing :
    context.listing.map ListingEntry.place =
      (instructionLines (sourceLines source)).map Line.place := by
  rw [assembles.context_eq]
  exact List.map_map.trans (map_place_layOut assembles.length_eq)

theorem program_eq_flatMap_listing :
    context.program = context.listing.flatMap ListingEntry.bytes := by
  rw [assembles.context_eq]
  exact (List.flatMap_map ..).symm

/-- An instruction line begins at the size of the program before it, which is what the listing shows
as its address. -/
theorem boundary_eq (index : Nat) :
    context.boundary index = codeSize profile (program.take index) := by
  by_cases inside : index < program.length
  · have short : index < (instructionLines (sourceLines source)).length :=
      assembles.length_eq ▸ inside
    rw [Context.boundary, assembles.listing_eq (List.getElem?_eq_getElem short)
      (List.getElem?_eq_getElem inside)]
  · have behind : program.length ≤ index := Nat.le_of_not_lt inside
    have none : context.listing[index]? = none :=
      List.getElem?_eq_none (assembles.length_listing_eq.symm ▸ behind)
    rw [Context.boundary, none, List.take_of_length_le behind, assembles.length_program_eq]

/-- An instruction line begins behind the bytes of the entries before its own. -/
theorem boundary_eq_length (index : Nat) :
    context.boundary index =
      ((context.listing.take index).flatMap ListingEntry.bytes).length := by
  have same : ((instructionLines (sourceLines source)).take index).length =
      (program.take index).length := by
    rw [List.length_take, List.length_take, assembles.length_eq]
  have bytes : (context.listing.take index).flatMap ListingEntry.bytes =
      imageOf profile.encodesTargets context.byteOf (program.take index) := by
    rw [assembles.context_eq]
    simp only [Context.extend, Context.placing, List.nil_append]
    rw [← List.map_take, List.flatMap_map, take_layOut]
    exact flatMap_bytes_layOut same
  rw [assembles.boundary_eq, bytes, length_imageOf]

/-- Under true sizes the lines in front of a place in the program text take up the bytes of
the instructions among them. -/
theorem extent_eq_boundary (exact : profile.fixedSizing = false) {front back : List Line}
    (split : sourceLines source = front ++ back) :
    extent profile (front.map Line.statement) =
      context.boundary (instructionLines front).length := by
  have writes := assembles.writes
  rw [split, instructionLines_append] at writes
  have before := List.forall₂_take (instructionLines front).length writes
  rw [List.take_left' rfl] at before
  rw [assembles.boundary_eq, extent_eq_codeSize exact before]

/-- Under **true sizes** a label stands where the instruction behind it begins, or where the image
ends. Under fixed sizing it need not. -/
theorem addressOf_eq_boundary (exact : profile.fixedSizing = false) (name : Text) :
    addressOf profile (statements source) name =
      context.boundary (indexOf (statements source) name) := by
  let front := (sourceLines source).takeWhile fun line => line.statement ≠ .label name
  have before : beforeLabel (statements source) name = front.map Line.statement := by
    rw [← map_statement_sourceLines, beforeLabel, List.takeWhile_map]
    rfl
  have count : indexOf (statements source) name = (instructionLines front).length := by
    rw [indexOf, before, List.countP_map, List.countP_eq_length_filter]
    rfl
  rw [addressOf, before, count]
  exact assembles.extent_eq_boundary exact (List.takeWhile_append_dropWhile ..).symm

/-- Nothing is wrong with the label that an instruction of the program goes to. -/
theorem not_labelDefect {written : Written} (inside : written ∈ program) {name : Text}
    (goes : written.label? = some name) (cause : SourceError.Cause) :
    ¬ LabelDefect profile (statements source) name cause := by
  intro defect
  obtain ⟨i, short, rfl⟩ := List.getElem_of_mem inside
  have shorter : i < (instructionLines (sourceLines source)).length :=
    assembles.length_eq.symm ▸ short
  have encodes := assembles.encodes.get shorter short
  rw [← map_statement_sourceLines] at defect
  exact encodes.2 name goes _ ((targetDefect_iff rfl).mpr ⟨cause, defect, rfl⟩)

/-- An instruction of the program goes to a label that is declared somewhere in the text. -/
theorem declared {written : Written} (inside : written ∈ program) {name : Text}
    (goes : written.label? = some name) : .label name ∈ statements source :=
  (not_labelDefect_iff.mp (assembles.not_labelDefect inside goes)).1

theorem label?_eq {name : Text} (declared : .label name ∈ statements source) :
    ∃ lineNum, context.label? name =
      some ⟨name, addressOf profile (statements source) name, lineNum⟩ := by
  have labels : context.labels = placements context.profile 0 (sourceLines source) := by
    rw [assembles.profile_eq, assembles.labels_eq]
  rw [← map_statement_sourceLines] at declared ⊢
  obtain ⟨line, -, looked⟩ := Context.label?_of_placements labels declared
  rw [assembles.profile_eq] at looked
  exact ⟨line.place.lineNum, looked⟩

/-- The **byte** that a branch carries is the address of its label, which is small enough for that,
since otherwise the line would have been refused. -/
theorem byteOf_eq (carries : profile.encodesTargets = true) {written : Written}
    (inside : written ∈ program) {name : Text} (goes : written.label? = some name) :
    (context.byteOf name).toNat = addressOf profile (statements source) name := by
  obtain ⟨declared, low⟩ := not_labelDefect_iff.mp (assembles.not_labelDefect inside goes)
  obtain ⟨lineNum, looked⟩ := assembles.label?_eq declared
  have small : addressOf profile (statements source) name < 256 := by
    have := low carries
    omega
  rw [Context.byteOf, looked]
  exact UInt8.toNat_ofNat_of_lt' small

/-- The **byte** of a label is where its line begins, under true sizes, so a branch that is taken
leads to that line. -/
theorem byteOf_eq_boundary (exact : profile.fixedSizing = false)
    (carries : profile.encodesTargets = true) {written : Written} (inside : written ∈ program)
    {name : Text} (goes : written.label? = some name) :
    (context.byteOf name).toNat = context.boundary (indexOf (statements source) name) := by
  rw [assembles.byteOf_eq carries inside goes, assembles.addressOf_eq_boundary exact]

end Assembles

end ByteMachine
