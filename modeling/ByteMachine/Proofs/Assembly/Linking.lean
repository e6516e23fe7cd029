import ByteMachine.Proofs.Assembly.Profiles

/-!
# Program texts behind each other

What an assembly makes of a program text that is put together from two, with a line feed between
them. The labels of the first keep their addresses, and those of the second stand behind all of the
first. So the image is that of the first and then that of the second, in which each target is
`moved` by the size of the first. It is only there that something new can go wrong: a target that
has fitted in a byte may not do so any more.

The statements of the two are compared first, without a pass (`Linkable`). That the numbers in the
two can be worked out need not be assumed, because they have been.

## Main results

* `Linkable.not_encodingDefect`, `Linkable.encodingDefect_iff`: what is wrong with a statement of
  the first or of the second, once they are put together.
* `program_of_linked`: the image of both.
* `error_of_linked_line`: what both together are rejected for.
* `assemble_linked`: how the assembly of both ends.
-/

namespace ByteMachine

/-! ### Statements behind each other -/

/-- The lines of two texts with a line feed between them are those of the one and then those of the
other. -/
theorem Text.lines_append (front back : Text) :
    lines (front ++ '\n' :: back) = lines front ++ lines back :=
  List.splitOn_append_cons_self ..

/-- The statements of two program texts with a line feed between them are those of the one and
then those of the other. -/
theorem statements_append (front back : Text) :
    statements (front ++ '\n' :: back) = statements front ++ statements back := by
  rw [statements, Text.lines_append, List.map_append, statements, statements]

/-- Programs that can be **linked**: each of them is acceptable, no name is declared in both, and
together they do not declare more names than there may be. -/
structure Linkable (profile : Profile) (maxLabels : Int) (front back : List Statement) : Prop where
  first : Acceptable profile maxLabels front
  second : Acceptable profile maxLabels back
  disjoint : (declaredNames front).Disjoint (declaredNames back)
  room : ((declaredNames front ++ declaredNames back).length : Int) ≤ max maxLabels 0

variable {profile : Profile} {maxLabels maxProgramSize : Int}

/-- Where a program is acceptable nothing but a label can be wrong with a statement of it, and
it declares that. -/
theorem Acceptable.exists_labelDefect {source all : List Statement} {statement : Statement}
    {cause : SourceError.Cause} (acceptable : Acceptable profile maxLabels source)
    (inside : statement ∈ source) (defect : EncodingDefect profile all statement cause) :
    ∃ written name, statement.Writes written ∧ written.label? = some name ∧
      .label name ∈ source ∧ LabelDefect profile all name cause := by
  have clean := freeOf_const_iff.mp (acceptable_iff.mp acceptable).2.2 statement inside
  cases defect with
  | unknown unknown => exact absurd (.unknown unknown) (clean _)
  | operands defect => exact absurd (.operands defect) (clean _)
  | target writes goes defect =>
      exact ⟨_, _, writes, goes, acceptable.declared _ inside _ writes _ goes, defect⟩

namespace Linkable

variable {front back : List Statement} {statement : Statement} {cause : SourceError.Cause}
  (linkable : Linkable profile maxLabels front back)

include linkable

theorem not_mem {name : Text} (declared : .label name ∈ back) : .label name ∉ front :=
  fun before => linkable.disjoint (mem_declaredNames_iff.mpr before)
    (mem_declaredNames_iff.mpr declared)

theorem named : FreeOf (fun _ => NamingDefect) (front ++ back) := by
  refine freeOf_namingDefect_iff.mpr fun name inside => ?_
  rcases List.mem_append.mp inside with before | behind
  · exact linkable.first.named name before
  · exact linkable.second.named name behind

/-- Both together have no placing defect: no name is in both, and there is room for all of them. -/
theorem placed : FreeOf (PlacingDefect maxLabels) (front ++ back) := by
  rw [freeOf_placingDefect_iff, declaredNames_append]
  exact ⟨List.nodup_append'.mpr ⟨linkable.first.distinct, linkable.second.distinct,
    linkable.disjoint⟩, linkable.room⟩

/-- Nothing is wrong with a statement of the first: its labels stand where they did. -/
theorem not_encodingDefect (inside : statement ∈ front) :
    ¬ EncodingDefect profile (front ++ back) statement cause := by
  intro defect
  obtain ⟨written, name, writes, goes, declared, defect⟩ :=
    linkable.first.exists_labelDefect inside defect
  cases defect with
  | undeclared undeclared => exact undeclared (List.mem_append_left back declared)
  | tooHigh _ carries high =>
      rw [addressOf_append_of_mem declared] at high
      exact absurd (linkable.first.near carries _ inside _ writes _ goes) (Nat.not_le.mpr high)

/-- What is wrong with a statement of the **second** is that it carries a target which is too high
behind the first. -/
theorem encodingDefect_iff (inside : statement ∈ back) :
    EncodingDefect profile (front ++ back) statement cause ↔
      ∃ written name, statement.Writes written ∧ written.label? = some name ∧
        profile.encodesTargets = true ∧
        0xFF < extent profile front + addressOf profile back name ∧
        cause = .addressTooLarge name
          (extent profile front + addressOf profile back name : Nat) := by
  constructor
  · intro defect
    obtain ⟨written, name, writes, goes, declared, defect⟩ :=
      linkable.second.exists_labelDefect inside defect
    cases defect with
    | undeclared undeclared => exact absurd (List.mem_append_right front declared) undeclared
    | tooHigh _ carries high =>
        rw [addressOf_append_of_not_mem (linkable.not_mem declared)] at high ⊢
        exact ⟨written, name, writes, goes, carries, high, rfl⟩
  · rintro ⟨written, name, writes, goes, carries, high, rfl⟩
    have declared := linkable.second.declared _ inside _ writes _ goes
    rw [← addressOf_append_of_not_mem (linkable.not_mem declared)] at high ⊢
    exact .target writes goes (.tooHigh (List.mem_append_right front declared) carries high)

/-- Both together are acceptable if nothing is wrong with the statements of the second behind the
first. -/
theorem acceptable
    (clean : ∀ statement ∈ back, ∀ cause,
      ¬ EncodingDefect profile (front ++ back) statement cause) :
    Acceptable profile maxLabels (front ++ back) := by
  refine acceptable_iff.mpr ⟨linkable.named, linkable.placed, freeOf_const_iff.mpr ?_⟩
  intro statement inside cause
  rcases List.mem_append.mp inside with before | behind
  · exact linkable.not_encodingDefect before
  · exact clean statement behind cause

end Linkable

/-! ### Listings -/

namespace ListingEntry

/-- The target among the bytes of an entry: the last of them, on a branch line. -/
def target? (entry : ListingEntry) : Option UInt8 :=
  if (statementOf entry.place.text).isBranch then entry.bytes.getLast? else none

/-- The bytes of an entry **moved** by a distance: that is added to the target, and nothing else
changes. -/
def moved (distance : Nat) (entry : ListingEntry) : List UInt8 :=
  match entry.target? with
  | some target => entry.bytes.dropLast ++ [UInt8.ofNat (target.toNat + distance)]
  | none => entry.bytes

/-- An entry that can be **moved** by a distance: its target, if it has one, still is a byte. -/
def Movable (distance : Nat) (entry : ListingEntry) : Prop :=
  ∀ target ∈ entry.target?, target.toNat + distance ≤ 0xFF

instance (distance : Nat) : DecidablePred (Movable distance) :=
  fun entry => inferInstanceAs (Decidable (∀ target ∈ entry.target?, _))

/-- Where not all entries can be moved there is a first that cannot, and it has a target. -/
theorem exists_first_not_movable {distance : Nat} {listing : List ListingEntry}
    (stuck : ¬ ∀ entry ∈ listing, entry.Movable distance) :
    ∃ before entry behind target, listing = before ++ entry :: behind ∧
      (∀ earlier ∈ before, earlier.Movable distance) ∧
      entry.target? = some target ∧ 0xFF < target.toNat + distance := by
  induction listing with
  | nil => exact absurd (List.forall_mem_nil _) stuck
  | cons entry listing ih =>
      by_cases movable : entry.Movable distance
      · obtain ⟨before, first, behind, target, rfl, near, far⟩ :=
          ih fun rest => stuck (List.forall_mem_cons.mpr ⟨movable, rest⟩)
        exact ⟨entry :: before, first, behind, target, rfl,
          List.forall_mem_cons.mpr ⟨movable, near⟩, far⟩
      · rw [Movable, not_forall] at movable
        obtain ⟨target, far⟩ := movable
        rw [Classical.not_imp, Nat.not_le] at far
        exact ⟨[], entry, listing, target, rfl, List.forall_mem_nil _, far⟩

variable {byteOf other : Text → UInt8} {entry : ListingEntry} {written : Written}

theorem Lists.target?_eq (lists : Lists true byteOf entry written) :
    entry.target? = written.label?.map byteOf := by
  rw [target?, lists.writes.isBranch_eq, lists.bytes_eq]
  cases written <;> rfl

/-- The bytes of an entry that is moved are those of the encoding with another byte for its
label. -/
theorem Lists.moved_eq {distance : Nat} (lists : Lists true byteOf entry written)
    (same : ∀ name, written.label? = some name →
      other name = UInt8.ofNat ((byteOf name).toNat + distance)) :
    entry.moved distance = (written.encode true other).bytes := by
  rw [moved, lists.target?_eq, lists.bytes_eq]
  cases written with
  | branchIf register value name =>
      have byte := same name rfl
      simp only [Written.label?, Option.map_some, Written.encode, if_true, byte]
      rfl
  | jump name =>
      have byte := same name rfl
      simp only [Written.label?, Option.map_some, Written.encode, if_true, byte]
      rfl
  | _ => rfl

end ListingEntry

/-! ### Assemblies -/

variable {front back source : Text} {program others both : List Written}
  {context other linked : Context}

/-- What is assembled is acceptable, and its numbers can be worked out as well. -/
theorem acceptable_of_assembled
    (assembled : (assemble profile source maxLabels maxProgramSize).result = .ok context) :
    Acceptable profile maxLabels (statements source) := by
  rcases acceptable_or_firstDefect profile maxLabels (statements source) with
    acceptable | ⟨i, cause, bad⟩
  · exact acceptable
  · obtain ⟨text, -, rejected⟩ :=
      @assemble_of_firstDefect profile maxLabels maxProgramSize _ _ _
        (readable_of_assembled assembled) bad
    rw [assembled] at rejected
    cases rejected

/-- Program texts that are both assembled can be linked, if no name is declared in both and there is
room for all. -/
theorem linkable_of_assembled
    (one : (assemble profile front maxLabels maxProgramSize).result = .ok context)
    (two : (assemble profile back maxLabels maxProgramSize).result = .ok other)
    (disjoint : (declaredNames (statements front)).Disjoint (declaredNames (statements back)))
    (room : ((declaredNames (statements front) ++ declaredNames (statements back)).length : Int) ≤
      max maxLabels 0) :
    Linkable profile maxLabels (statements front) (statements back) :=
  ⟨acceptable_of_assembled one, acceptable_of_assembled two, disjoint, room⟩

namespace Assembles

/-- The instructions among the statements write the program, one by one. -/
theorem forall₂_writes (assembles : Assembles profile maxLabels source program context) :
    List.Forall₂ Statement.Writes ((statements source).filter Statement.isInstruction) program := by
  rw [← map_statement_sourceLines, List.filter_map, List.forall₂_map_left_iff]
  exact assembles.writes

/-- Program texts with a line feed between them write the programs of both, one after the other. -/
theorem program_linked (one : Assembles profile maxLabels front program context)
    (two : Assembles profile maxLabels back others other)
    (assembles : Assembles profile maxLabels (front ++ '\n' :: back) both linked) :
    both = program ++ others := by
  have unique : Relator.RightUnique Statement.Writes := fun _ _ _ => Statement.Writes.unique
  have writes := assembles.forall₂_writes
  rw [statements_append, List.filter_append] at writes
  exact unique.forall₂ writes (List.rel_append one.forall₂_writes two.forall₂_writes)

theorem exists_lists (assembles : Assembles profile maxLabels source program context)
    (carries : profile.encodesTargets = true) {entry : ListingEntry}
    (inside : entry ∈ context.listing) :
    ∃ written ∈ program, entry.Lists true context.byteOf written := by
  obtain ⟨i, short, rfl⟩ := List.getElem_of_mem inside
  have lists := carries ▸ assembles.lists
  exact ⟨_, List.getElem_mem (lists.length_eq ▸ short), lists.get short (lists.length_eq ▸ short)⟩

/-- The target of an entry is the address of the label that its line goes to. -/
theorem exists_target (assembles : Assembles profile maxLabels source program context)
    (carries : profile.encodesTargets = true) {entry : ListingEntry}
    (inside : entry ∈ context.listing) {written : Written} {name : Text}
    (writes : (statementOf entry.place.text).Writes written) (goes : written.label? = some name) :
    ∃ target, entry.target? = some target ∧
      target.toNat = addressOf profile (statements source) name := by
  obtain ⟨found, among, lists⟩ := assembles.exists_lists carries inside
  obtain rfl := writes.unique lists.writes
  refine ⟨context.byteOf name, ?_, assembles.byteOf_eq carries among goes⟩
  rw [lists.target?_eq, goes]
  rfl

theorem exists_entry (assembles : Assembles profile maxLabels source program context)
    {statement : Statement} (inside : statement ∈ statements source)
    (instruction : statement.isInstruction = true) :
    ∃ entry ∈ context.listing, statementOf entry.place.text = statement := by
  rw [← map_statement_sourceLines] at inside
  obtain ⟨line, among, rfl⟩ := List.mem_map.mp inside
  have listed : line.place ∈ context.listing.map ListingEntry.place := by
    rw [assembles.map_place_listing]
    exact List.mem_map_of_mem (List.mem_filter.mpr ⟨among, instruction⟩)
  obtain ⟨entry, found, place⟩ := List.mem_map.mp listed
  exact ⟨entry, found, by rw [place, statement_eq_of_mem_sourceLines among]⟩

/-- The line of an entry: the instruction lines in front of it are those of the entries in
front. -/
theorem exists_line_of_listing (assembles : Assembles profile maxLabels source program context)
    {before behind : List ListingEntry} {entry : ListingEntry}
    (split : context.listing = before ++ entry :: behind) :
    ∃ passed line rest, sourceLines source = passed ++ line :: rest ∧ line.place = entry.place ∧
      ∀ part ∈ passed, part.statement.isInstruction = true →
        ∃ earlier ∈ before, earlier.place = part.place := by
  have places := assembles.map_place_listing
  rw [split, List.map_append, List.map_cons, eq_comm, List.map_eq_append_iff] at places
  obtain ⟨first, second, lines, firsts, seconds⟩ := places
  obtain ⟨line, last, rfl, place, -⟩ := List.map_eq_cons_iff.mp seconds
  obtain ⟨early, late, whole, rfl, tail⟩ := List.filter_eq_append_iff.mp lines
  obtain ⟨between, rest, rfl, plain, -, -⟩ := List.filter_eq_cons_iff.mp tail
  refine ⟨early ++ between, line, rest, by rw [whole, List.append_assoc], place, ?_⟩
  intro part inside instruction
  rcases List.mem_append.mp inside with among | among
  · have listed : part.place ∈ before.map ListingEntry.place := by
      rw [← firsts]
      exact List.mem_map_of_mem (List.mem_filter.mpr ⟨among, instruction⟩)
    exact List.mem_map.mp listed
  · exact absurd instruction (plain part among)

end Assembles

/-! ### The image of both -/

/-- Lists whose elements correspond have the same bytes if corresponding elements have. -/
theorem flatMap_eq_of_forall₂ {α β γ : Type} {r : α → β → Prop} {parts : List α} {others : List β}
    {f : α → List γ} {g : β → List γ} (all : List.Forall₂ r parts others)
    (same : ∀ part, ∀ other ∈ others, r part other → f part = g other) :
    parts.flatMap f = others.flatMap g := by
  induction all with
  | nil => rfl
  | cons first _ ih =>
      rw [List.flatMap_cons, List.flatMap_cons, same _ _ List.mem_cons_self first,
        ih fun part other inside => same part other (List.mem_cons_of_mem _ inside)]

/-- An encoding depends on the byte of its label alone, and on that where targets are
carried. -/
theorem Written.encode_congr {targets : Bool} {byteOf other : Text → UInt8} {written : Written}
    (same : targets = true → ∀ name, written.label? = some name → byteOf name = other name) :
    written.encode targets byteOf = written.encode targets other := by
  cases targets with
  | false => cases written <;> rfl
  | true =>
      cases written with
      | branchIf _ _ name => rw [encode, encode, same rfl name rfl]
      | jump name => rw [encode, encode, same rfl name rfl]
      | _ => rfl

section Linked

variable (one : Assembles profile maxLabels front program context)
  (two : Assembles profile maxLabels back others other)
  (assembles : Assembles profile maxLabels (front ++ '\n' :: back) both linked)

include one two assembles

/-- A branch of the first carries in the linked image what it carried before. -/
theorem byteOf_linked (carries : profile.encodesTargets = true) {written : Written}
    (inside : written ∈ program) {name : Text} (goes : written.label? = some name) :
    linked.byteOf name = context.byteOf name := by
  have among : written ∈ both :=
    one.program_linked two assembles ▸ List.mem_append_left others inside
  refine UInt8.toNat_inj.mp ?_
  rw [assembles.byteOf_eq carries among goes, one.byteOf_eq carries inside goes, statements_append,
    addressOf_append_of_mem (one.declared inside goes)]

/-- A branch of the second carries what it did, moved by the size of the first. Here the sizes have
to be true ones. -/
theorem byteOf_linked_moved
    (linkable : Linkable profile maxLabels (statements front) (statements back))
    (exact : profile.fixedSizing = false) (carries : profile.encodesTargets = true)
    {written : Written} (inside : written ∈ others) {name : Text}
    (goes : written.label? = some name) :
    linked.byteOf name = UInt8.ofNat ((other.byteOf name).toNat + context.program.length) := by
  have among : written ∈ both :=
    one.program_linked two assembles ▸ List.mem_append_right program inside
  have undeclared := linkable.not_mem (two.declared inside goes)
  rw [two.byteOf_eq carries inside goes, ← one.extent_eq_length exact, Nat.add_comm,
    ← addressOf_append_of_not_mem undeclared, ← statements_append,
    ← assembles.byteOf_eq carries among goes, UInt8.ofNat_toNat]

theorem imageOf_linked :
    imageOf profile.encodesTargets linked.byteOf program = context.program := by
  rw [one.program_eq]
  refine List.flatMap_congr fun written inside => congrArg Instruction.bytes ?_
  exact Written.encode_congr fun carries _ goes =>
    byteOf_linked one two assembles carries inside goes

/-- Without targets the image is that of the first and then that of the second. -/
theorem program_of_linked_of_omits (omits : profile.encodesTargets = false) :
    linked.program = context.program ++ other.program := by
  rw [assembles.program_eq, one.program_linked two assembles, imageOf, List.flatMap_append]
  refine congrArg₂ (· ++ ·) (imageOf_linked one two assembles) ?_
  rw [two.program_eq]
  refine List.flatMap_congr fun written inside => congrArg Instruction.bytes ?_
  refine Written.encode_congr fun carries => ?_
  rw [omits] at carries
  cases carries

/-- With targets the image is that of the first and then the listing of the second, **moved** by the
size of the first. -/
theorem program_of_linked
    (linkable : Linkable profile maxLabels (statements front) (statements back))
    (exact : profile.fixedSizing = false) (carries : profile.encodesTargets = true) :
    linked.program = context.program ++
      other.listing.flatMap (ListingEntry.moved context.program.length) := by
  rw [assembles.program_eq, one.program_linked two assembles, imageOf, List.flatMap_append]
  refine congrArg₂ (· ++ ·) (imageOf_linked one two assembles) ?_
  refine (flatMap_eq_of_forall₂ (carries ▸ two.lists) fun entry written inside lists => ?_).symm
  rw [carries]
  exact lists.moved_eq fun name goes =>
    byteOf_linked_moved one two assembles linkable exact carries inside goes

end Linked

/-! ### The outcome -/

section Outcome

variable (linkable : Linkable profile maxLabels (statements front) (statements back))

include linkable

/-- Nothing is wrong with a statement of the second whose entry can be moved behind the
first. -/
theorem not_encodingDefect_of_movable (carries : profile.encodesTargets = true)
    (two : Assembles profile maxLabels back others other) {statement : Statement}
    (inside : statement ∈ statements back)
    (movable : statement.isInstruction = true → ∃ entry ∈ other.listing,
      statementOf entry.place.text = statement ∧ entry.Movable (extent profile (statements front)))
    (cause : SourceError.Cause) :
    ¬ EncodingDefect profile (statements front ++ statements back) statement cause := by
  intro defect
  obtain ⟨written, name, writes, goes, -, high, -⟩ :=
    (linkable.encodingDefect_iff inside).mp defect
  obtain ⟨entry, among, rfl, near⟩ := movable writes.isInstruction
  obtain ⟨target, has, address⟩ := two.exists_target carries among writes goes
  have low := near target has
  omega

/-- Nothing is wrong with the second behind the first where all its entries can be moved. -/
theorem not_encodingDefect_of_forall_movable (carries : profile.encodesTargets = true)
    (two : Assembles profile maxLabels back others other)
    (movable : ∀ entry ∈ other.listing, entry.Movable (extent profile (statements front))) :
    ∀ statement ∈ statements back, ∀ cause,
      ¬ EncodingDefect profile (statements front ++ statements back) statement cause := by
  intro statement inside
  refine not_encodingDefect_of_movable linkable carries two inside fun instruction => ?_
  obtain ⟨entry, found, states⟩ := two.exists_entry inside instruction
  exact ⟨entry, found, states, movable entry found⟩

/-- Nothing is wrong with the second behind the first where targets are left out. -/
theorem not_encodingDefect_of_omits (omits : profile.encodesTargets = false) :
    ∀ statement ∈ statements back, ∀ cause,
      ¬ EncodingDefect profile (statements front ++ statements back) statement cause := by
  intro statement inside cause defect
  obtain ⟨_, _, -, -, carries, -⟩ := (linkable.encodingDefect_iff inside).mp defect
  rw [omits] at carries
  cases carries

variable (readable : ∀ statement ∈ statements (front ++ '\n' :: back), statement.Readable)

include readable

/-- Program texts are assembled together if nothing is wrong with the statements of the
second. -/
theorem exists_linked
    (clean : ∀ statement ∈ statements back, ∀ cause,
      ¬ EncodingDefect profile (statements front ++ statements back) statement cause) :
    ∃ linked, (assemble profile (front ++ '\n' :: back) maxLabels maxProgramSize).result =
      .ok linked := by
  refine assemble_of_acceptable readable ?_
  rw [statements_append]
  exact linkable.acceptable clean

/-- Program texts are **not** assembled together if something is wrong with a statement of the
second. The first such line is shown, with its number behind the lines of the first text. -/
theorem error_of_linked_line {passed rest : List Line} {line : Line} {cause : SourceError.Cause}
    (split : sourceLines back = passed ++ line :: rest)
    (clean : ∀ part ∈ passed, ∀ cause,
      ¬ EncodingDefect profile (statements front ++ statements back) part.statement cause)
    (bad : EncodingDefect profile (statements front ++ statements back) line.statement cause) :
    (assemble profile (front ++ '\n' :: back) maxLabels maxProgramSize).result =
      .error (Place.reject
        ⟨(Text.lines front).length + line.place.lineNum, line.place.text⟩ cause) := by
  have whole : statements (front ++ '\n' :: back) =
      (statements front ++ passed.map Line.statement) ++
        line.statement :: rest.map Line.statement := by
    rw [statements_append, ← map_statement_sourceLines back, split, List.map_append, List.map_cons,
      List.append_assoc]
  have early : ∀ statement ∈ statements front ++ passed.map Line.statement, ∀ cause,
      ¬ EncodingDefect profile (statements front ++ statements back) statement cause :=
    List.forall_mem_append.mpr ⟨fun _ inside _ => linkable.not_encodingDefect inside,
      List.forall_mem_map.mpr clean⟩
  have first := @firstAt_const _ _ (rest.map Line.statement) _ _ early bad
  have named := linkable.named
  have placed := linkable.placed
  rw [← statements_append] at named placed first
  rw [← whole] at first
  obtain ⟨text, stands, rejected⟩ :=
    @assemble_of_encodingDefect profile maxLabels maxProgramSize _ _ _ readable named placed first
  -- The number that is shown is the index of the line in both, counted from one.
  have index : (statements front ++ passed.map Line.statement).length =
      (Text.lines front).length + passed.length := by
    rw [List.length_append, List.length_map, statements, List.length_map]
  have here : (sourceLines back)[passed.length]? = some line := by
    rw [split, List.getElem?_append_right (Nat.le_refl _), Nat.sub_self]
    rfl
  obtain ⟨shown, there, numbered⟩ := place_of_getElem?_sourceLines here
  rw [index, Text.lines_append, List.getElem?_append_right (Nat.le_add_right _ _),
    Nat.add_sub_cancel_left, there] at stands
  cases stands
  rw [rejected, index, numbered, Int.natCast_add, Int.add_assoc]

/-- Program texts are not assembled together if a target of the second cannot be moved. The
error is that of the first entry in the listing with such a target. -/
theorem error_of_linked (carries : profile.encodesTargets = true)
    (two : Assembles profile maxLabels back others other) {before behind : List ListingEntry}
    {entry : ListingEntry} (split : other.listing = before ++ entry :: behind)
    (near : ∀ earlier ∈ before, earlier.Movable (extent profile (statements front)))
    {target : UInt8} (has : entry.target? = some target)
    (far : 0xFF < target.toNat + extent profile (statements front)) :
    ∃ name, (assemble profile (front ++ '\n' :: back) maxLabels maxProgramSize).result =
      .error (Place.reject
        ⟨(Text.lines front).length + entry.place.lineNum, entry.place.text⟩
        (.addressTooLarge name (target.toNat + extent profile (statements front) : Nat))) := by
  obtain ⟨passed, line, rest, lines, place, entries⟩ := two.exists_line_of_listing split
  have stated (part : Line) (inside : part ∈ sourceLines back) :
      part.statement = statementOf part.place.text := statement_eq_of_mem_sourceLines inside
  have inside : line ∈ sourceLines back := lines ▸ List.mem_append_cons_self
  -- The line goes to a label, and the target is the address of that.
  obtain ⟨written, among, lists⟩ :=
    two.exists_lists carries (split ▸ List.mem_append_cons_self)
  obtain ⟨name, goes, rfl⟩ := Option.map_eq_some_iff.mp (lists.target?_eq.symm.trans has)
  have address := two.byteOf_eq carries among goes
  have writes : line.statement.Writes written := by
    rw [stated line inside, place]
    exact lists.writes
  have bad := (linkable.encodingDefect_iff (statement_mem_statements inside)).mpr
    ⟨written, name, writes, goes, carries, by omega, rfl⟩
  have clean : ∀ part ∈ passed, ∀ cause,
      ¬ EncodingDefect profile (statements front ++ statements back) part.statement cause := by
    intro part before
    have inside : part ∈ sourceLines back := lines ▸ List.mem_append_left _ before
    refine not_encodingDefect_of_movable linkable carries two (statement_mem_statements inside)
      fun instruction => ?_
    obtain ⟨earlier, found, same⟩ := entries part before instruction
    exact ⟨earlier, split ▸ List.mem_append_left _ found, by rw [stated part inside, same],
      near earlier found⟩
  refine ⟨name, ?_⟩
  rw [error_of_linked_line linkable readable lines clean bad, place, address, Nat.add_comm]

end Outcome

/-- **How two program texts are assembled together**, with a line feed between them. Each of them is
assembled by itself, no name is declared in both, and together they do not declare more names than
there may be. Where targets are left out, the image is that of the first and then that of the
second. Where they are carried and sizes are true, the same holds but for the targets of the second,
each of which is moved by the size of the first. That is so as long as all of them can be moved.
Otherwise the assembly fails, for the first branch line of the second with a target that cannot: the
line is rejected under its number behind the lines of the first, for an address that could be too
long to be shown only if the first image had more than `10 ^ 4299` bytes. -/
theorem assemble_linked
    (one : (assemble profile front maxLabels maxProgramSize).result = .ok context)
    (two : (assemble profile back maxLabels maxProgramSize).result = .ok other)
    (disjoint : (declaredNames (statements front)).Disjoint (declaredNames (statements back)))
    (room : ((declaredNames (statements front) ++ declaredNames (statements back)).length : Int) ≤
      max maxLabels 0) :
    let both := (assemble profile (front ++ '\n' :: back) maxLabels maxProgramSize).result
    let distance := context.program.length
    (profile.encodesTargets = false →
      both.map Context.program = .ok (context.program ++ other.program)) ∧
    (profile.encodesTargets = true → profile.fixedSizing = false →
      other.program = other.listing.flatMap ListingEntry.bytes ∧
      ((∀ entry ∈ other.listing, entry.Movable distance) → both.map Context.program =
        .ok (context.program ++ other.listing.flatMap (ListingEntry.moved distance))) ∧
      ((¬ ∀ entry ∈ other.listing, entry.Movable distance) →
        ∃ before entry behind target name, other.listing = before ++ entry :: behind ∧
          (∀ earlier ∈ before, earlier.Movable distance) ∧
          entry.target? = some target ∧ 0xFF < target.toNat + distance ∧
          both = .error (Place.reject
            ⟨(Text.lines front).length + entry.place.lineNum, entry.place.text⟩
            (.addressTooLarge name (target.toNat + distance : Nat))))) := by
  intro both distance
  have linkable := linkable_of_assembled one two disjoint room
  have readable : ∀ statement ∈ statements (front ++ '\n' :: back), statement.Readable := by
    rw [statements_append, List.forall_mem_append]
    exact ⟨readable_of_assembled one, readable_of_assembled two⟩
  obtain ⟨program, first⟩ := exists_assembles one
  obtain ⟨others, second⟩ := exists_assembles two
  refine ⟨fun omits => ?_, fun carries exact => ⟨second.program_eq_flatMap_listing, ?_, ?_⟩⟩
  · obtain ⟨linked, assembled⟩ := @exists_linked _ _ maxProgramSize _ _ linkable readable
      (not_encodingDefect_of_omits linkable omits)
    obtain ⟨_, third⟩ := exists_assembles assembled
    rw [show both = .ok linked from assembled, Except.map,
      program_of_linked_of_omits first second third omits]
  · intro movable
    obtain ⟨linked, assembled⟩ := @exists_linked _ _ maxProgramSize _ _ linkable readable
      (not_encodingDefect_of_forall_movable linkable carries second
        (first.extent_eq_length exact ▸ movable))
    obtain ⟨_, third⟩ := exists_assembles assembled
    rw [show both = .ok linked from assembled, Except.map,
      program_of_linked first second third linkable exact carries]
  · intro stuck
    obtain ⟨before, entry, behind, target, split, near, has, far⟩ :=
      ListingEntry.exists_first_not_movable stuck
    obtain ⟨name, rejected⟩ := @error_of_linked _ _ maxProgramSize _ _ _ _ linkable readable carries
      second _ _ _ split (first.extent_eq_length exact ▸ near) _ has
      (first.extent_eq_length exact ▸ far)
    rw [first.extent_eq_length exact] at rejected
    exact ⟨before, entry, behind, target, name, split, near, has, far, rejected⟩

/-- Of two jumps that go to themselves the second moves behind the first, and its target with it. -/
theorem exists_linked_jumps :
    ∃ context other, (assemble .resolved "A:\nJMP A".toList 50 256).result = .ok context ∧
      (assemble .resolved "B:\nJMP B".toList 50 256).result = .ok other ∧
      context.program = [0x06, 0x00] ∧ other.program = [0x06, 0x00] ∧
      (assemble .resolved ("A:\nJMP A".toList ++ '\n' :: "B:\nJMP B".toList) 50 256).result.map
        Context.program = .ok [0x06, 0x00, 0x06, 0x02] := by
  have front : (assemble .resolved "A:\nJMP A".toList 50 256).result.toOption.any
      (fun context => context.program = [0x06, 0x00]) = true := by
    decide +kernel
  have back : (assemble .resolved "B:\nJMP B".toList 50 256).result.toOption.any
      (fun context => context.program = [0x06, 0x00] ∧
        (∀ entry ∈ context.listing, entry.Movable 2) ∧
        context.listing.flatMap (ListingEntry.moved 2) = [0x06, 0x02]) = true := by
    decide +kernel
  obtain ⟨context, one, first⟩ := exists_context_of_any front
  obtain ⟨other, two, rest⟩ := exists_context_of_any back
  replace first := of_decide_eq_true first
  obtain ⟨second, movable, moved⟩ := of_decide_eq_true rest
  have size : context.program.length = 2 := by
    rw [first]
    rfl
  rw [← size] at movable moved
  obtain ⟨-, carried⟩ := assemble_linked one two (List.disjoint_left.mpr (by decide +kernel))
    (by decide +kernel)
  refine ⟨context, other, one, two, first, second, ?_⟩
  rw [(carried rfl rfl).2.1 movable, moved, first]
  rfl

end ByteMachine
