import ByteMachine.Files.Error

/-!
# Files

A **disk** is the part of a file system below one directory, in which all paths start: the
contents of the files and the set of directories, each named by the steps that lead to it.

A path is walked step by step. An empty step or `.` stays, `..` goes back, and any other name
goes down; every step needs a directory to start from. So a path that ends in a slash names
a directory, and one that goes through a file or through nothing leads nowhere.

The commands reach files and standard output only through the operations of a `SystemAccess`,
which a disk offers as changes of its state.
-/

namespace ByteMachine

/-- The steps from the starting directory to a file or directory. -/
abbrev Steps := List Text

/-- A **disk**: files with their contents, and directories below the starting one. -/
structure Disk where
  files : List (Steps × List UInt8) := []
  directories : List Steps := []
  deriving DecidableEq, Repr

/-- Where a path **leads**: a file, a directory, or a place where nothing is. -/
inductive Target
  | directory (steps : Steps)
  | file (steps : Steps)
  /-- Nothing is there, but the directory is where it would be. -/
  | vacant (steps : Steps)
  deriving DecidableEq, Repr

/-- The greatest number of bytes in a name. -/
def maxNameBytes : Nat := 255

/-- The greatest number of bytes in a path. -/
def maxPathBytes : Nat := 4095

/-- The number of bytes that a text takes in UTF-8. -/
def Text.utf8Length (text : Text) : Nat :=
  text.foldl (fun length c => length + c.utf8Size) 0

/-- A path cut at its slashes. -/
def pathNames (path : Text) : List Text :=
  path.splitOn '/'

/-- Refuses a path that is **no path** below the starting directory, whatever stands there. -/
def checkPath (path : Text) : Except FileErrorKind Unit :=
  if path.contains (Char.ofNat 0) then .error .embeddedNul
  else if path = [] ∨ path.head? = some '/' then .error .notFound
  else if maxPathBytes < Text.utf8Length path then .error .nameTooLong
  else .ok ()

namespace Disk

/-- The contents of a file. -/
def contents? (disk : Disk) (steps : Steps) : Option (List UInt8) :=
  disk.files.lookup steps

/-- Whether there is a directory. -/
def hasDirectory (disk : Disk) (steps : Steps) : Bool :=
  steps = [] || disk.directories.contains steps

/-- What stands at a place. -/
def targetAt (disk : Disk) (steps : Steps) : Target :=
  if disk.hasDirectory steps then .directory steps
  else if (disk.contents? steps).isSome then .file steps
  else .vacant steps

/-- One step of a walk. Going back from the starting directory leads nowhere. -/
def step (disk : Disk) (target : Target) (name : Text) : Except FileErrorKind Target :=
  match target with
  | .file _ => .error .notDirectory
  | .vacant _ => .error .notFound
  | .directory steps =>
    if name = [] ∨ name = ['.'] then .ok (.directory steps)
    else if name = ['.', '.'] then
      if steps = [] then .error .notFound else .ok (.directory steps.dropLast)
    else if maxNameBytes < Text.utf8Length name then .error .nameTooLong
    else .ok (disk.targetAt (steps ++ [name]))

/-- Where steps lead, one after the other. -/
def walk (disk : Disk) (names : List Text) : Except FileErrorKind Target :=
  names.foldlM disk.step (.directory [])

/-- Where a path leads, or the error that is met on the way. -/
def resolve (disk : Disk) (path : Text) : Except FileErrorKind Target := do
  checkPath path
  disk.walk (pathNames path)

/-- The directory in which the last name of a path stands, or the error on the way to it. -/
def resolveParent (disk : Disk) (path : Text) : Except FileErrorKind Target := do
  checkPath path
  let stem := (path.reverse.dropWhile (· = '/')).reverse
  disk.walk ((pathNames stem).dropLast ++ [[]])

/-- Reads a file: all its bytes, or the error about its path. -/
def read (disk : Disk) (path : Text) : Except FileError (List UInt8) :=
  match disk.resolve path with
  | .error kind => .error ⟨kind, path⟩
  | .ok (.directory _) => .error ⟨.isDirectory, path⟩
  | .ok (.vacant _) => .error ⟨.notFound, path⟩
  | .ok (.file steps) =>
    match disk.contents? steps with
    | some bytes => .ok bytes
    | none => .error ⟨.notFound, path⟩

/-- Puts contents in the place of a file, which may be there or not. -/
def put (disk : Disk) (steps : Steps) (bytes : List UInt8) : Disk :=
  { disk with files := (steps, bytes) :: disk.files.filter fun entry => entry.1 ≠ steps }

/-- **Writes** a file, which may be a new one. A slash at the end asks for a directory, which
cannot be written, whatever stands there. -/
def write (disk : Disk) (path : Text) (bytes : List UInt8) : Except FileError Disk :=
  if path.getLast? = some '/' then
    match disk.resolveParent path with
    | .error kind => .error ⟨kind, path⟩
    | .ok _ => .error ⟨.isDirectory, path⟩
  else
    match disk.resolve path with
    | .error kind => .error ⟨kind, path⟩
    | .ok (.directory _) => .error ⟨.isDirectory, path⟩
    | .ok (.vacant steps) => .ok (disk.put steps bytes)
    | .ok (.file steps) => .ok (disk.put steps bytes)

end Disk

/-- Standard output **refuses** a text, for a reason of the system's: a character that its encoding
does not have, or nobody at the other end. -/
structure OutputError where
  reason : String
  deriving DecidableEq, Repr

/-- The operations through which a command **reaches** the system: the files, and standard output.
A failed write changes nothing. Standard output may refuse what is printed. -/
structure SystemAccess (m : Type → Type) where
  read : Text → m (Except FileError (List UInt8))
  write : Text → List UInt8 → m (Except FileError Unit)
  print : String → m (Except OutputError Unit)

/-- A disk as the state that is read and written. Beside it there is a standard output that takes
everything. -/
def Disk.access : SystemAccess (StateM Disk) where
  read path := do return (← get).read path
  write path bytes := do
    match (← get).write path bytes with
    | .ok disk => set disk; return .ok ()
    | .error error => return .error error
  print _ := return .ok ()

/-! ### Plain paths -/

/-- A path in its **plain form**: empty steps and `.` left out, and `.` for the starting
directory itself. A slash in front stays. -/
def plainPath (path : Text) : Text :=
  let names := (pathNames path).filter fun name => name ≠ [] ∧ name ≠ ['.']
  if path.head? = some '/' then '/' :: Text.joinWith ['/'] names
  else if names = [] then ['.']
  else Text.joinWith ['/'] names

/-- Reads the file at the plain form of a path. -/
def Disk.readPlain (disk : Disk) (path : Text) : Except FileError (List UInt8) :=
  disk.read (plainPath path)

end ByteMachine
