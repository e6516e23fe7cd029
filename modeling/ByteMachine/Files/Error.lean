import ByteMachine.Text.Quoted

/-!
# File errors

Why a file is not read or written. Each error has the number and the words by which the
system knows it, except that a path which holds a NUL character is refused before the system
is asked.
-/

namespace ByteMachine

/-- The **kinds** of file errors, as the system tells them apart. -/
inductive FileErrorKind
  | notFound
  | isDirectory
  | notDirectory
  | nameTooLong
  | embeddedNul
  /-- Any other error, with the number and the words of the system. -/
  | other (number : Nat) (reason : String)
  deriving DecidableEq, Repr

namespace FileErrorKind

/-- The number of an error. -/
def number : FileErrorKind → Nat
  | notFound => 2
  | isDirectory => 21
  | notDirectory => 20
  | nameTooLong => 36
  | embeddedNul => 0
  | other number _ => number

/-- An error in words. -/
def reason : FileErrorKind → String
  | notFound => "No such file or directory"
  | isDirectory => "Is a directory"
  | notDirectory => "Not a directory"
  | nameTooLong => "File name too long"
  | embeddedNul => "embedded null byte"
  | other _ reason => reason

end FileErrorKind

/-- A **file error**: its kind and the path as it was given. -/
structure FileError where
  kind : FileErrorKind
  path : Text
  deriving DecidableEq, Repr

/-- The message of a file error: its number, its reason and the path. -/
def FileError.message (error : FileError) : String :=
  if error.kind = .embeddedNul then error.kind.reason
  else
    s!"[Errno {error.kind.number}] {error.kind.reason}: " ++
      String.ofList (Text.quoted error.path)

end ByteMachine
