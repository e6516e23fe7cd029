import ByteMachine.Files.Disk

/-!
# File systems

What a command may rely on when it reads and writes files and prints. A `FileSystem` says which file
a path names and what a file contains, and has the three operations of a `SystemAccess`; its laws
are what the operations have to do with the contents. A write that fails has no state to go on in,
so it has no effect; a write that succeeds changes one file, the one that its path names then.
Printing may fail at any time, and changes no file whether it does or not.

Files are named by paths, and several paths may name one file. So the laws speak of files where
they say what stays as it was.

A `Disk` is a file system. Its files are named by the steps to them, and the one thing to see is
that a path leads to a file once something has been put there, which is so because putting it
there changes no directory on the way.

## Main results

* `FileSystem.run_write_bind_of_ok`, `FileSystem.run_print_bind`: what a command that writes or
  prints goes on with.
* `Disk.system`: a disk is a file system.
-/

namespace ByteMachine

/-- A **file system** with a standard output: its states, its files, and the operations with their
laws. -/
structure FileSystem where
  State : Type
  /-- What makes two names the names of one file. -/
  File : Type
  /-- The file that a path **names**. -/
  file? : State → Text → Option File
  /-- The **contents** of a file, if it exists. -/
  contents? : State → File → Option (List UInt8)
  read : State → Text → Except FileError (List UInt8)
  write : State → Text → List UInt8 → Except FileError State
  /-- Whether standard output takes a text, and the state behind that. -/
  print : State → String → Except OutputError Unit × State
  /-- What is read is the contents of the file. -/
  contents_of_read {state : State} {path : Text} {bytes : List UInt8} :
    read state path = .ok bytes → ∃ file, file? state path = some file ∧
      contents? state file = some bytes
  /-- What is written is the contents of the file, and all other files stay as they were. -/
  contents_of_write {state after : State} {path : Text} {bytes : List UInt8} :
    write state path bytes = .ok after → ∃ file, file? after path = some file ∧
      contents? after file = some bytes ∧
      ∀ other, other ≠ file → contents? after other = contents? state other
  /-- Paths name the same files when something has been printed. -/
  file?_of_print (state : State) (text : String) (path : Text) :
    file? (print state text).2 path = file? state path
  /-- All files stay as they were when something has been printed. -/
  contents_of_print (state : State) (text : String) (file : File) :
    contents? (print state text).2 file = contents? state file

/-- The operations of a file system as **access** to its state, which is what commands are written
for. -/
def FileSystem.access (system : FileSystem) : SystemAccess (StateM system.State) where
  read path := do return system.read (← get) path
  write path bytes := do
    match system.write (← get) path bytes with
    | .ok state => set state; return .ok ()
    | .error error => return .error error
  print text := do
    let (taken, state) := system.print (← get) text
    set state
    return taken

/-- Standard output takes **whatever** is printed, in every state. This is no law: a pipe may be
closed, and a text may have no encoding. -/
def FileSystem.TakesAll (system : FileSystem) : Prop :=
  ∀ state text, (system.print state text).1 = .ok ()

namespace FileSystem

variable {system : FileSystem} {state after : system.State} {path : Text} {bytes : List UInt8}
  {α : Type}

theorem run_read_bind (goOn : Except FileError (List UInt8) → StateM system.State α) :
    (system.access.read path >>= goOn).run state = (goOn (system.read state path)).run state :=
  rfl

/-- A write that succeeds goes on in the state that it has made. -/
theorem run_write_bind_of_ok (written : system.write state path bytes = .ok after)
    (goOn : Except FileError Unit → StateM system.State α) :
    (system.access.write path bytes >>= goOn).run state = (goOn (.ok ())).run after := by
  simp only [access, bind_assoc, StateT.run_bind, StateT.run_get, pure_bind, written]
  rfl

/-- A write that fails leaves the state as it is, and what follows is told the error. -/
theorem run_write_bind_of_error {error : FileError}
    (refused : system.write state path bytes = .error error)
    (goOn : Except FileError Unit → StateM system.State α) :
    (system.access.write path bytes >>= goOn).run state = (goOn (.error error)).run state := by
  simp only [access, bind_assoc, StateT.run_bind, StateT.run_get, pure_bind, refused]
  rfl

/-- Printing goes on with what standard output has to say, in the state behind that. It may fail and
still have changed the state. -/
theorem run_print_bind (text : String) (goOn : Except OutputError Unit → StateM system.State α) :
    (system.access.print text >>= goOn).run state =
      (goOn (system.print state text).1).run (system.print state text).2 :=
  rfl

/-- Two states have the **same files**: each path names the same one in both, and each file contains
the same. -/
structure SameFiles (system : FileSystem) (state after : system.State) : Prop where
  file?_eq : ∀ path, system.file? after path = system.file? state path
  contents_eq : ∀ file, system.contents? after file = system.contents? state file

/-- Files that stay the same, and then again, stay the same from the first state to the last. -/
theorem SameFiles.trans {later : system.State} (first : system.SameFiles state after)
    (second : system.SameFiles after later) : system.SameFiles state later where
  file?_eq path := (second.file?_eq path).trans (first.file?_eq path)
  contents_eq file := (second.contents_eq file).trans (first.contents_eq file)

theorem sameFiles_print (state : system.State) (text : String) :
    system.SameFiles state (system.print state text).2 :=
  ⟨system.file?_of_print state text, system.contents_of_print state text⟩

end FileSystem

/-! ### Disks -/

/-- Where a path leads once something is **put** at some steps: to a file if nothing was there. -/
def Target.filled (steps : Steps) : Target → Target
  | .directory place => .directory place
  | .file place => .file place
  | .vacant place => if place = steps then .file place else .vacant place

namespace Disk

variable {disk : Disk} {steps other : Steps} {bytes : List UInt8} {path : Text}

theorem contents?_put (disk : Disk) (steps : Steps) (bytes : List UInt8) :
    (disk.put steps bytes).contents? steps = some bytes := by
  rw [put, contents?, List.lookup_cons_self]

theorem contents?_put_of_ne (different : other ≠ steps) :
    (disk.put steps bytes).contents? other = disk.contents? other := by
  have behind (files : List (Steps × List UInt8)) :
      (files.filter fun entry => entry.1 ≠ steps).lookup other = files.lookup other := by
    induction files with
    | nil => rfl
    | cons entry files ih =>
        obtain ⟨place, contents⟩ := entry
        by_cases same : place = steps
        · have apart : (other == place) = false := beq_false_of_ne (same ▸ different)
          rw [List.filter_cons_of_neg (by simpa using same), ih, List.lookup_cons, apart]
        · rw [List.filter_cons_of_pos (by simpa using same), List.lookup_cons, List.lookup_cons, ih]
  have apart : (other == steps) = false := beq_false_of_ne different
  rw [put, contents?, List.lookup_cons, apart, behind, contents?]

/-- What stands at a place once something is put somewhere: what stood there before, or the file
that was put. -/
theorem targetAt_put (place : Steps) :
    (disk.put steps bytes).targetAt place = (disk.targetAt place).filled steps := by
  have directories : (disk.put steps bytes).hasDirectory place = disk.hasDirectory place := rfl
  rw [targetAt, targetAt, directories]
  split
  · rfl
  · by_cases same : place = steps
    · subst same
      rw [contents?_put, if_pos Option.isSome_some]
      split
      · rfl
      · rw [Target.filled, if_pos rfl]
    · rw [contents?_put_of_ne same]
      split
      · rfl
      · rw [Target.filled, if_neg same]

/-- A step of a path that leads somewhere leads there still when something has been put
somewhere. -/
theorem step_put {target next : Target} {name : Text} (went : disk.step target name = .ok next) :
    (disk.put steps bytes).step (target.filled steps) name = .ok (next.filled steps) := by
  cases target with
  | file place => cases went
  | vacant place => cases went
  | directory place =>
      rw [step] at went
      rw [Target.filled, step]
      split at went
      next stays =>
        cases went
        rw [if_pos stays]
        rfl
      next moves =>
        rw [if_neg moves]
        split at went
        next back =>
          rw [if_pos back]
          split at went
          · cases went
          next inside =>
            cases went
            rw [if_neg inside]
            rfl
        next down =>
          rw [if_neg down]
          split at went
          · cases went
          next short =>
            cases went
            rw [if_neg short, targetAt_put]

/-- A walk along several names that leads somewhere leads there still, by induction on the names. -/
theorem walk_put {target next : Target} {names : List Text}
    (went : names.foldlM disk.step target = .ok next) :
    names.foldlM (disk.put steps bytes).step (target.filled steps) = .ok (next.filled steps) := by
  induction names generalizing target with
  | nil =>
      cases went
      rfl
  | cons name names ih =>
      rw [List.foldlM_cons] at went ⊢
      cases first : disk.step target name with
      | error kind =>
          rw [first] at went
          cases went
      | ok reached =>
          rw [first] at went
          rw [step_put first]
          exact ih went

/-- A path that leads somewhere leads there still. So a write does not change what the paths of
existing files mean. -/
theorem resolve_put {target : Target} (leads : disk.resolve path = .ok target) :
    (disk.put steps bytes).resolve path = .ok (target.filled steps) := by
  rw [resolve] at leads ⊢
  cases checked : checkPath path with
  | error kind =>
      rw [checked] at leads
      cases leads
  | ok _ =>
      rw [checked] at leads
      exact walk_put leads

/-- The file that a path names, as the steps that lead to it, if it names one. -/
def file? (disk : Disk) (path : Text) : Option Steps :=
  match disk.resolve path with
  | .ok (.file steps) => some steps
  | _ => none

theorem file?_of_resolve (leads : disk.resolve path = .ok (.file steps)) :
    disk.file? path = some steps := by
  rw [file?, leads]

/-- What is read from a path is the contents of the file that the path names. -/
theorem contents?_of_read (read : disk.read path = .ok bytes) :
    ∃ steps, disk.file? path = some steps ∧ disk.contents? steps = some bytes := by
  rw [Disk.read] at read
  split at read
  · cases read
  · cases read
  · cases read
  next steps leads =>
    split at read
    next contents found =>
      cases read
      exact ⟨steps, file?_of_resolve leads, found⟩
    · cases read

/-- A write that succeeds puts its bytes where the path leads then. Before the write there may have
been no file there. -/
theorem exists_put_of_write {after : Disk} (written : disk.write path bytes = .ok after) :
    ∃ steps, after = disk.put steps bytes ∧ after.file? path = some steps := by
  rw [write] at written
  split at written
  · split at written <;> cases written
  · split at written
    · cases written
    · cases written
    next steps leads =>
      cases written
      refine ⟨steps, rfl, file?_of_resolve ?_⟩
      rw [resolve_put leads, Target.filled, if_pos rfl]
    next steps leads =>
      cases written
      exact ⟨steps, rfl, file?_of_resolve (resolve_put leads)⟩

/-- A disk is a **file system**, with a standard output that takes whatever is printed. -/
def system : FileSystem where
  State := Disk
  File := Steps
  file? := file?
  contents? := contents?
  read := read
  write := write
  print disk _ := (.ok (), disk)
  contents_of_read := contents?_of_read
  contents_of_write {state after path bytes} written := by
    obtain ⟨steps, rfl, names⟩ := exists_put_of_write written
    exact ⟨steps, names, contents?_put state steps bytes, fun other => contents?_put_of_ne⟩
  file?_of_print _ _ _ := rfl
  contents_of_print _ _ _ := rfl

end Disk

end ByteMachine
