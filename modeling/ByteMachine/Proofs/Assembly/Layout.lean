import ByteMachine.Assembly.Context

/-!
# The layout of a program

Where the statements of a program stand, said without running a pass. A statement takes up
its `size`, a list of statements its `extent`, and a label stands behind the extent of the
statements before its declaration. Where two declarations have one name the first counts.

`placements` is the label table that a program without bad declarations gets: one label for
each declaration, in order. Looking a name up in it gives the address and the line number of
the first declaration.

## Main results

* `find?_placements`, `find?_placements_eq_none`: looking up a name in the table.
* `exists_declaration_of_mem_placements`: every label of the table is declared by a line and
  stands behind the extent of the lines before it.
-/

namespace ByteMachine

/-! ### Sizes -/

namespace Statement

/-- Whether the statement is an **instruction**, with a word that is known or with any other. -/
def isInstruction : Statement → Bool
  | instruction _ _ => true
  | _ => false

theorem exists_of_isInstruction {statement : Statement}
    (instruction : statement.isInstruction = true) :
    ∃ word tokens, statement = .instruction word tokens := by
  cases statement with
  | instruction word tokens => exact ⟨word, tokens, rfl⟩
  | blank => cases instruction
  | label _ => cases instruction

/-- The **size** of a statement: an instruction takes up three bytes under fixed sizing or if
its word is unknown, and its length otherwise; any other statement takes up nothing. -/
def size (profile : Profile) : Statement → Nat
  | instruction word _ =>
    match Mnemonic.ofName? word with
    | none => fixedInstructionSize
    | some mnemonic =>
      if profile.fixedSizing then fixedInstructionSize else mnemonic.length profile
  | _ => 0

end Statement

/-- The **extent** of a list of statements: their sizes together. Labels are placed by it, and not
by the bytes of an image. -/
def extent (profile : Profile) : List Statement → Nat
  | [] => 0
  | statement :: rest => statement.size profile + extent profile rest

@[simp] theorem extent_append (profile : Profile) (front back : List Statement) :
    extent profile (front ++ back) = extent profile front + extent profile back := by
  induction front with
  | nil => simp [extent]
  | cons statement rest ih => simp only [List.cons_append, extent, ih, Nat.add_assoc]

theorem Statement.size_le (profile : Profile) (statement : Statement) :
    statement.size profile ≤ 4 := by
  have instruction (mnemonic : Mnemonic) : mnemonic.length profile ≤ 4 := by
    cases carries : profile.encodesTargets <;> cases mnemonic <;>
      simp [Mnemonic.length, Mnemonic.operandKinds, carries]
  cases statement with
  | instruction word tokens =>
      rw [Statement.size]
      split
      · decide
      · split
        · decide
        · exact instruction _
  | blank => exact Nat.zero_le _
  | label _ => exact Nat.zero_le _

theorem extent_le (profile : Profile) (source : List Statement) :
    extent profile source ≤ 4 * source.length := by
  induction source with
  | nil => exact Nat.le_refl _
  | cons statement rest ih =>
      have := statement.size_le profile
      rw [extent, List.length_cons]
      omega

/-- Under fixed sizing the extent is three bytes for each instruction, whatever its length. -/
theorem extent_of_fixedSizing {profile : Profile} (fixed : profile.fixedSizing = true)
    (source : List Statement) :
    extent profile source = fixedInstructionSize * source.countP Statement.isInstruction := by
  induction source with
  | nil => rfl
  | cons statement rest ih =>
      rw [extent, ih]
      cases statement with
      | instruction word tokens =>
          have size : (Statement.instruction word tokens).size profile = fixedInstructionSize := by
            rw [Statement.size]
            split
            · rfl
            · rw [if_pos fixed]
          rw [size, List.countP_cons_of_pos rfl, Nat.mul_add, Nat.mul_one, Nat.add_comm]
      | blank => simp [Statement.size, Statement.isInstruction]
      | label name => simp [Statement.size, Statement.isInstruction]

theorem Context.sizeOf_instruction (context : Context) (word : Text) (tokens : List Text) :
    context.sizeOf (.instruction word tokens) =
      (Statement.instruction word tokens).size context.profile :=
  rfl

/-! ### Declarations -/

/-- The **names** that statements declare, in order and with repetitions. A program may declare each
of them only once. -/
def declaredNames (source : List Statement) : List Text :=
  source.filterMap Statement.label?

/-- The statements **before** the first declaration of a label. If there is none, these are all
statements. -/
def beforeLabel (source : List Statement) (name : Text) : List Statement :=
  source.takeWhile fun statement => statement ≠ .label name

/-- The address of a label: the extent of the statements before its declaration. -/
def addressOf (profile : Profile) (source : List Statement) (name : Text) : Nat :=
  extent profile (beforeLabel source name)

/-- The number of instructions before a label, which is the **index** of the instruction
behind it. -/
def indexOf (source : List Statement) (name : Text) : Nat :=
  (beforeLabel source name).countP Statement.isInstruction

theorem mem_declaredNames_iff {source : List Statement} {name : Text} :
    name ∈ declaredNames source ↔ .label name ∈ source := by
  rw [declaredNames, List.mem_filterMap]
  constructor
  · rintro ⟨statement, inside, declares⟩
    cases statement with
    | label _ =>
        cases declares
        exact inside
    | blank => cases declares
    | instruction _ _ => cases declares
  · exact fun inside => ⟨_, inside, rfl⟩

/-- The names of statements that follow each other are those of the parts, one after the other. -/
@[simp] theorem declaredNames_append (front back : List Statement) :
    declaredNames (front ++ back) = declaredNames front ++ declaredNames back :=
  List.filterMap_append

@[simp] theorem beforeLabel_cons_self (name : Text) (rest : List Statement) :
    beforeLabel (.label name :: rest) name = [] := by
  simp [beforeLabel]

theorem beforeLabel_cons_of_ne {statement : Statement} {name : Text} (rest : List Statement)
    (other : statement ≠ .label name) :
    beforeLabel (statement :: rest) name = statement :: beforeLabel rest name := by
  simp [beforeLabel, other]

theorem beforeLabel_append_of_not_mem {front : List Statement} {name : Text}
    (undeclared : .label name ∉ front) (rest : List Statement) :
    beforeLabel (front ++ rest) name = front ++ beforeLabel rest name := by
  refine List.takeWhile_append_of_pos fun statement inside => ?_
  exact decide_eq_true fun same => undeclared (same ▸ inside)

/-- What follows statements that declare a label does not stand before it. -/
theorem beforeLabel_append_of_mem {front : List Statement} {name : Text}
    (declared : .label name ∈ front) (rest : List Statement) :
    beforeLabel (front ++ rest) name = beforeLabel front name := by
  induction front with
  | nil => cases declared
  | cons statement front ih =>
      rw [List.cons_append]
      by_cases here : statement = .label name
      · rw [here, beforeLabel_cons_self, beforeLabel_cons_self]
      · have later := (List.mem_cons.mp declared).resolve_left fun same => here same.symm
        rw [beforeLabel_cons_of_ne _ here, beforeLabel_cons_of_ne _ here, ih later]

/-- Fewer statements stand before a label that is declared than there are, since its declaration
does not. -/
theorem length_beforeLabel_lt {source : List Statement} {name : Text}
    (declared : .label name ∈ source) : (beforeLabel source name).length < source.length := by
  have front : beforeLabel source name <+: source := List.takeWhile_prefix _
  refine Nat.lt_of_le_of_ne front.length_le fun all => ?_
  have others : (beforeLabel source name).all fun statement => statement ≠ .label name :=
    List.all_takeWhile
  rw [front.eq_of_length all] at others
  exact of_decide_eq_true (List.all_eq_true.mp others _ declared) rfl

/-- The address of a label is at most four times the number of statements. So only in a text of
very many lines it has many digits. -/
theorem addressOf_le (profile : Profile) (source : List Statement) (name : Text) :
    addressOf profile source name ≤ 4 * source.length := by
  have before : (beforeLabel source name).length ≤ source.length :=
    (List.takeWhile_sublist _).length_le
  have := extent_le profile (beforeLabel source name)
  rw [addressOf]
  omega

/-- A label that is declared in front has its address there, whatever follows. -/
theorem addressOf_append_of_mem {front : List Statement} {name : Text}
    (declared : .label name ∈ front) (profile : Profile) (back : List Statement) :
    addressOf profile (front ++ back) name = addressOf profile front name := by
  rw [addressOf, beforeLabel_append_of_mem declared, addressOf]

/-- A label that is not declared in front has its address behind all of that. -/
theorem addressOf_append_of_not_mem {front : List Statement} {name : Text}
    (undeclared : .label name ∉ front) (profile : Profile) (back : List Statement) :
    addressOf profile (front ++ back) name =
      extent profile front + addressOf profile back name := by
  rw [addressOf, beforeLabel_append_of_not_mem undeclared, extent_append, addressOf]

/-! ### The label table -/

/-- The **labels** that lines declare, the first of which stands at `address`. Names that are
declared twice are here twice. -/
def placements (profile : Profile) (address : Nat) : List Line → List Label
  | [] => []
  | line :: lines =>
    (line.statement.label?.map fun name => ⟨name, address, line.place.lineNum⟩).toList ++
      placements profile (address + line.statement.size profile) lines

/-- The table of lines that follow each other is that of the front, and behind it that of
the rest. -/
theorem placements_append (profile : Profile) (address : Nat) (front back : List Line) :
    placements profile address (front ++ back) =
      placements profile address front ++
        placements profile (address + extent profile (front.map Line.statement)) back := by
  induction front generalizing address with
  | nil => rfl
  | cons line lines ih =>
      rw [List.cons_append, placements, ih, placements, List.map_cons, extent, Nat.add_assoc,
        List.append_assoc]

@[simp] theorem map_name_placements (profile : Profile) (address : Nat) (lines : List Line) :
    (placements profile address lines).map Label.name =
      declaredNames (lines.map Line.statement) := by
  induction lines generalizing address with
  | nil => rfl
  | cons line lines ih =>
      rw [placements, List.map_append, ih, List.map_cons, declaredNames, declaredNames]
      cases line.statement <;> rfl

/-- Looking up a declared name gives the **first declaration** of it, with its address and the
number of its line. -/
theorem find?_placements {profile : Profile} {address : Nat} {lines : List Line} {name : Text}
    (declared : .label name ∈ lines.map Line.statement) :
    ∃ line, lines[(beforeLabel (lines.map Line.statement) name).length]? = some line ∧
      (placements profile address lines).find? (fun label => label.name = name) =
        some ⟨name,
          (address + extent profile (beforeLabel (lines.map Line.statement) name) : Nat),
          line.place.lineNum⟩ := by
  induction lines generalizing address with
  | nil => cases declared
  | cons line lines ih =>
      rw [List.map_cons] at declared ⊢
      by_cases here : line.statement = .label name
      · refine ⟨line, ?_, ?_⟩
        · rw [here, beforeLabel_cons_self]
          rfl
        · rw [here, beforeLabel_cons_self, placements, here]
          simp [Statement.label?, extent]
      · have later := (List.mem_cons.mp declared).resolve_left fun same => here same.symm
        obtain ⟨first, found, looked⟩ := @ih (address + line.statement.size profile) later
        rw [beforeLabel_cons_of_ne _ here]
        refine ⟨first, found, ?_⟩
        have skip : (line.statement.label?.map fun name =>
            (⟨name, address, line.place.lineNum⟩ : Label)).toList.find?
              (fun label => label.name = name) = none := by
          cases said : line.statement with
          | label other =>
              have : other ≠ name := by
                rintro rfl
                exact here said
              simp [Statement.label?, this]
          | blank => rfl
          | instruction _ _ => rfl
        rw [placements, List.find?_append, skip, Option.none_or, looked, extent, Nat.add_assoc]

/-- Looking up a name that is not declared gives nothing, wherever in the program it is looked
up. -/
theorem find?_placements_eq_none {profile : Profile} {address : Nat} {lines : List Line}
    {name : Text} (undeclared : .label name ∉ lines.map Line.statement) :
    (placements profile address lines).find? (fun label => label.name = name) = none := by
  rw [List.find?_eq_none]
  intro label inside same
  refine undeclared (mem_declaredNames_iff.mp ?_)
  rw [← map_name_placements profile address, ← of_decide_eq_true same]
  exact List.mem_map_of_mem inside

/-- A context with the table of lines finds a declared name at its address, with the number
of the line that declares it first. -/
theorem Context.label?_of_placements {context : Context} {lines : List Line} {name : Text}
    (labels : context.labels = placements context.profile 0 lines)
    (declared : .label name ∈ lines.map Line.statement) :
    ∃ line, lines[(beforeLabel (lines.map Line.statement) name).length]? = some line ∧
      context.label? name =
        some ⟨name, addressOf context.profile (lines.map Line.statement) name,
          line.place.lineNum⟩ := by
  obtain ⟨line, found, looked⟩ := @find?_placements context.profile 0 _ _ declared
  exact ⟨line, found, by rw [Context.label?, labels, looked, Nat.zero_add, addressOf]⟩

/-- A context with the table of lines does not find a name that is not declared by them. -/
theorem Context.label?_of_placements_eq_none {context : Context} {lines : List Line}
    {name : Text} (labels : context.labels = placements context.profile 0 lines)
    (undeclared : .label name ∉ lines.map Line.statement) : context.label? name = none := by
  rw [Context.label?, labels]
  exact find?_placements_eq_none undeclared

/-- Every label of the table is declared by a line, and stands behind the lines before that. -/
theorem exists_declaration_of_mem_placements {profile : Profile} {address : Nat}
    {lines : List Line} {label : Label} (inside : label ∈ placements profile address lines) :
    ∃ front line back, lines = front ++ line :: back ∧ line.statement = .label label.name ∧
      label.lineNum = line.place.lineNum ∧
      label.address = (address + extent profile (front.map Line.statement) : Nat) := by
  induction lines generalizing address with
  | nil => cases inside
  | cons line lines ih =>
      rw [placements, List.mem_append] at inside
      rcases inside with here | later
      · rw [Option.mem_toList, Option.map_eq_some_iff] at here
        obtain ⟨name, declares, rfl⟩ := here
        refine ⟨[], line, lines, rfl, ?_, rfl, rfl⟩
        cases said : line.statement with
        | label other =>
            rw [said] at declares
            cases declares
            rfl
        | blank => rw [said] at declares; cases declares
        | instruction _ _ => rw [said] at declares; cases declares
      · obtain ⟨front, found, back, rfl, declares, number, place⟩ := ih later
        refine ⟨line :: front, found, back, rfl, declares, number, ?_⟩
        rw [place, List.map_cons, extent, Nat.add_assoc]

end ByteMachine
