import ByteMachine.Command.Execute

/-!
# The program

The commands on the files and the standard output of the system.
-/

namespace ByteMachine

/-- The kind of an error that the system reports. -/
def fileErrorKind : IO.Error → FileErrorKind
  | .noFileOrDirectory .. => .notFound
  | .inappropriateType _ 20 _ => .notDirectory
  | .inappropriateType .. => .isDirectory
  | .otherError number reason => .other number.toNat reason
  | .permissionDenied _ number reason => .other number.toNat reason
  | error => .other 5 (toString error)

/-- An operation on a file whose errors are results. -/
def attempt {α : Type} (path : Text) (operation : IO α) : IO (Except FileError α) := do
  if path.contains (Char.ofNat 0) then return .error ⟨.embeddedNul, path⟩
  try return .ok (← operation)
  catch error => return .error ⟨fileErrorKind error, path⟩

/-- The system that the program runs on. -/
def systemAccess : SystemAccess IO where
  read path := attempt path do return (← IO.FS.readBinFile (String.ofList path)).toList
  write path bytes :=
    attempt path (IO.FS.writeBinFile (String.ofList path) (ByteArray.mk bytes.toArray))
  print text := do
    try
      IO.print text
      return .ok ()
    catch error => return .error ⟨toString error⟩

end ByteMachine

open ByteMachine in
/-- Carries out the request of the command line. -/
def main (words : List String) : IO UInt32 := do
  let outcome ← Command.execute systemAccess (words.map String.toList)
  IO.eprint outcome.err
  match outcome.ending with
  | .status code => return code
  | .broken reason =>
    IO.eprintln reason.message
    return 1
  | .endless => return 1
