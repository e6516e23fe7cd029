import ByteMachine.Assembly.Listing
import ByteMachine.Assembly.Pass

/-!
# The assembler

An assembly takes a program text to its image: all lines are read first, then the two passes
go over them. `assembleIn` is that function, with its log. An `Assembler` holds the settings
of its assemblies and the context of the last one, if that one succeeded.
-/

namespace ByteMachine

/-- The size of the largest image that fits in the machine where no other is chosen. -/
def defaultMaxProgramSize : Int := 256

/-- The outcome of an **assembly**: its log, and the context it leaves if it succeeds. The
image is the program of the context. -/
structure Assembly where
  log : List LogRecord
  result : Except Failure Context

/-- The log of an image that is larger than it may be. A limit that is too long to be written leaves
no record. -/
def sizeWarning (size : Nat) (limit : Int) : List LogRecord :=
  if limit < size then
    match Text.numeral limit with
    | .ok numeral =>
      [⟨.warning, assemblyLogSource,
        s!"Program is {size} bytes; only the first {String.ofList numeral} fit in RAM"⟩]
    | .error _ => []
  else []

/-- Both **passes** over the lines of a program, from an empty context on. The second is made only
if the first succeeds, and an image that is too large for the machine is told in the log. -/
def assembleLines (empty : Context) (maxProgramSize : Int) (lines : List Line) : Assembly :=
  let first := empty.firstPass lines
  match first.result with
  | .error failure => ⟨first.log, .error failure⟩
  | .ok _ =>
    let second := first.context.secondPass lines
    match second.result with
    | .error failure => ⟨first.log ++ second.log, .error failure⟩
    | .ok program =>
      ⟨first.log ++ second.log ++ sizeWarning program.length maxProgramSize,
        .ok second.context⟩

/-- **Assembles** a program text from the start: what an assembler remembers from before is given up
first. -/
def assemble (profile : Profile) (source : Text) (maxLabels : Int := defaultMaxLabels)
    (maxProgramSize : Int := defaultMaxProgramSize) : Assembly :=
  match readSource source with
  | .error failure => ⟨[], .error failure⟩
  | .ok lines => assembleLines { profile, maxLabels } maxProgramSize lines

/-- An **assembler**: its settings, and what its last assembly left behind. The settings are fixed
when it is made. -/
structure Assembler where
  profile : Profile
  maxLabels : Int := defaultMaxLabels
  maxProgramSize : Int := defaultMaxProgramSize
  context : Option Context := none
  deriving DecidableEq, Repr

namespace Assembler

/-- Assembles a program text and keeps its context. A failed assembly leaves none, so nothing of an
earlier one is shown either. -/
def run (assembler : Assembler) (source : Text) : Assembler × Assembly :=
  let assembly :=
    assemble assembler.profile source assembler.maxLabels assembler.maxProgramSize
  ({ assembler with context := assembly.result.toOption }, assembly)

/-- The image of the last assembly, as far as it has come. -/
def image (assembler : Assembler) : List UInt8 :=
  match assembler.context with
  | some context => context.program
  | none => []

/-- The labels of the last assembly with their addresses, in the order of their declarations. -/
def labels (assembler : Assembler) : List (Text × Int) :=
  match assembler.context with
  | some context => context.labels.map fun label => (label.name, label.address)
  | none => []

/-- The listing of the last assembly, as it is written to a file. -/
def listingText (assembler : Assembler) : Text :=
  match assembler.context with
  | some context => context.listingText
  | none => []

end Assembler

end ByteMachine
