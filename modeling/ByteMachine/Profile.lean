/-!
# Profiles

A profile fixes the two points on which images for the machine differ: how far an
instruction moves the labels behind it, and whether a branch carries the address of its
target in the image. There are two named profiles; any other combination can be given as a
profile of its own.
-/

namespace ByteMachine

/-- A **profile** of the instruction encoding: how lines are sized, and whether branches carry their
target. -/
structure Profile where
  name : String
  description : String
  /-- Labels are placed as if every instruction took `fixedInstructionSize` bytes. -/
  fixedSizing : Bool
  /-- A branch carries the address of its label as its last byte. -/
  encodesTargets : Bool
  deriving DecidableEq, Repr

/-- The number of bytes that every instruction counts for under fixed sizing. -/
def fixedInstructionSize : Nat := 3

namespace Profile

/-- Fixed sizing, and branches without their target: labels are placed as if all instructions were
of one length. -/
def classic : Profile where
  name := "classic"
  description := "Original SOC8 encoding: fixed 3-byte label sizing, branch targets not encoded"
  fixedSizing := true
  encodesTargets := false

/-- True lengths, and branches with their target: a branch in an image goes where the program text
says. -/
def resolved : Profile where
  name := "resolved"
  description := "True instruction lengths, IF/JMP carry their target address"
  fixedSizing := false
  encodesTargets := true

/-- The named profiles, in the order in which they are listed. -/
def named : List Profile := [classic, resolved]

/-- The profile that holds where none is chosen. -/
def default : Profile := classic

end Profile

/-- How a profile is chosen: by a name, which may be unknown, or by giving it in full. -/
inductive ProfileRef
  | named (name : String)
  | given (profile : Profile)
  deriving DecidableEq, Repr

/-- A profile was chosen by a name that no profile has. The name is kept for the message. -/
structure UnknownProfile where
  name : String
  deriving DecidableEq, Repr

def UnknownProfile.message (error : UnknownProfile) : String :=
  let choices := String.intercalate ", " (Profile.named.map Profile.name)
  s!"Unknown ISA profile '{error.name}' (choose from {choices})"

/-- The profile that was chosen, by itself or by its name. -/
def ProfileRef.resolve : ProfileRef → Except UnknownProfile Profile
  | .given profile => .ok profile
  | .named name =>
    match Profile.named.find? fun profile => profile.name = name with
    | some profile => .ok profile
    | none => .error ⟨name⟩

end ByteMachine
