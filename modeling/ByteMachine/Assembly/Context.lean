import ByteMachine.Source.Line

/-!
# The context of an assembly

What one assembly works on and leaves behind: the label table, the branch sites, the bytes of
the program so far and the listing, each in the order in which its entries were made.

A label table never holds two labels of one name and never more than `maxLabels` labels:
`Context.addLabel` is the only way in. The first of the two conditions is checked first.
-/

namespace ByteMachine

/-- A **label**: its name, its address, and the line that declares it. An address that is set
by hand may lie anywhere. -/
structure Label where
  name : Text
  address : Int
  lineNum : Int
  deriving DecidableEq, Repr

/-- A **branch site**: the address right behind a branch, the label that the branch names, and
its line. -/
structure BranchSite where
  label : Text
  address : Nat
  lineNum : Int
  deriving DecidableEq, Repr

/-- An **entry of the listing**: an instruction line, its address and its bytes. There is one for
each instruction that was emitted, in the order of the program. -/
structure ListingEntry where
  place : Place
  address : Nat
  bytes : List UInt8
  deriving DecidableEq, Repr

/-- The largest number of labels that may be declared where no other is chosen. -/
def defaultMaxLabels : Int := 50

/-- The **context** of an assembly: the program so far, with the labels, the branch sites and the
listing that belong to it. -/
structure Context where
  profile : Profile
  maxLabels : Int := defaultMaxLabels
  labels : List Label := []
  sites : List BranchSite := []
  program : List UInt8 := []
  listing : List ListingEntry := []
  deriving DecidableEq, Repr

namespace Context

/-- The label of a given name, if the table has one. Names are compared as they are written. -/
def label? (context : Context) (name : Text) : Option Label :=
  context.labels.find? fun label => label.name = name

/-- **Declares** a label at an address. A label that is there already is refused first, then one for
which there is no room. -/
def addLabel (context : Context) (name : Text) (address : Int) (place : Place) :
    Except Failure Context :=
  match context.label? name with
  | some label => .error (place.reject (.duplicateLabel name label.lineNum))
  | none =>
    if context.maxLabels ≤ context.labels.length then
      .error (place.reject (.tooManyLabels context.maxLabels))
    else
      .ok { context with labels := context.labels ++ [⟨name, address, place.lineNum⟩] }

/-- The label that a line **refers to**. All labels have been declared by then, so it may stand on a
later line. -/
def findLabel (context : Context) (name : Text) (place : Place) : Except Failure Label :=
  match context.label? name with
  | some label => .ok label
  | none => .error (place.reject (.labelNotFound name))

/-- The number of bytes by which a line moves the labels behind it. A line whose instruction
is unknown counts like one under fixed sizing. -/
def sizeOf (context : Context) (statement : Statement) : Nat :=
  match statement.mnemonic?.bind Mnemonic.ofName? with
  | none => fixedInstructionSize
  | some mnemonic =>
    if context.profile.fixedSizing then fixedInstructionSize
    else mnemonic.length context.profile

/-- Emits bytes at the end of the program. -/
def emit (context : Context) (bytes : List UInt8) : Context :=
  { context with program := context.program ++ bytes }

end Context

end ByteMachine
