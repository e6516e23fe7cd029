import ByteMachine.Command.Execute
import ByteMachine.Proofs.Assembly.Result
import ByteMachine.Proofs.Command.CommandLine
import ByteMachine.Proofs.Files.FileSystem
import ByteMachine.Proofs.Text.Utf8

/-!
# Assembling a file

The command `asm` either leaves its image in the output file and says so, or leaves all files as
they were. It reads its input before it does anything else, works out the whole image in memory,
and opens its output last. So everything that can go wrong with the input goes wrong before the
output is touched, and what can go wrong with the output is a write that fails, which has no
effect. Nothing depends on whether input and output are the same file.

What it says, it says after the write. Standard output has been open since before the command began,
so it does not share in the order of the rest: if it does not take what is printed, the command
breaks off with its output written. That is the one way out of the alternative.

The file system is any `FileSystem`. The command line is any that asks for `asm`.

## Main results

* `assembleInput_eq_ok_iff`: which contents of the input are assembled, and what is known then.
* `run_announce`: what is left to happen once the output is written.
* `run_asm_cases`: the command has written its output, or has failed on the state it began in.
* `asm_atomic`: what a status of zero says, what any other end says, and when there is which.
-/

namespace ByteMachine.Command

variable {settings : Settings} {path : Text} {contents : Except FileError (List UInt8)}
  {assembler : Assembler} {log : List LogRecord} {outcome : Outcome}

/-! ### The input -/

/-- The end of a command is a **failure**: an error that it reports, or one that it breaks off
on. -/
def Ending.IsFailure (ending : Ending) : Prop :=
  ending = .status 1 ∨ ∃ reason, ending = .broken reason

/-- A failure does not end with status zero, so a command that ends with it was no failure. -/
theorem Ending.IsFailure.ne_zero {ending : Ending} (failure : ending.IsFailure) :
    ending ≠ .status 0 := by
  rintro rfl
  obtain code | ⟨reason, broken⟩ := failure
  · cases code
  · cases broken

/-- A file that is not reached is a failure: of the status, or with the exception that a path with a
null character raises. -/
theorem isFailure_failOnFile (before action : String) (error : FileError) :
    (failOnFile before action error).ending.IsFailure := by
  rw [failOnFile]
  split
  · exact .inr ⟨_, rfl⟩
  · exact .inl rfl

/-- What is known of an input that is **assembled**: the assembler with its context, and the log. -/
def Assembled (settings : Settings) (text : Text) (assembler : Assembler) (log : List LogRecord) :
    Prop :=
  let assembly := assemble settings.profile (Text.unifyLineEnds text)
  ∃ context, assembly.result = .ok context ∧ log = assembly.log ∧
    assembler = { profile := settings.profile, context := some context }

/-- An input whose bytes are those of a text is taken as the text with its line ends unified. -/
theorem sourceText_eq_ok_iff {bytes : List UInt8} {source : Text} :
    sourceText bytes = .ok source ↔
      ∃ text, bytes = Utf8.encode text ∧ source = Text.unifyLineEnds text := by
  rw [sourceText]
  constructor
  · intro read
    cases decoded : Utf8.decode bytes with
    | error fault =>
        rw [decoded] at read
        cases read
    | ok text =>
        rw [decoded] at read
        cases read
        exact ⟨text, Utf8.decode_eq_ok_iff.mp decoded, rfl⟩
  · rintro ⟨text, encoded, rfl⟩
    rw [Utf8.decode_eq_ok_iff.mpr encoded]
    rfl

/-- An input is **assembled** exactly if it could be read, its bytes are those of a text, and that
text is assembled. -/
theorem assembleInput_eq_ok_iff :
    assembleInput settings path contents = .ok (assembler, log) ↔
      ∃ text, contents = .ok (Utf8.encode text) ∧ Assembled settings text assembler log := by
  constructor
  · intro worked
    unfold assembleInput at worked
    split at worked
    · cases worked
    next bytes =>
      split at worked
      · cases worked
      next source read =>
        obtain ⟨text, rfl, rfl⟩ := sourceText_eq_ok_iff.mp read
        simp only at worked
        split at worked
        next context result =>
          cases worked
          refine ⟨text, rfl, context, result, rfl, ?_⟩
          have kept : (assemble settings.profile (Text.unifyLineEnds text)).result = .ok context :=
            result
          simp only [Assembler.run, kept, Except.toOption]
        · split at worked <;> cases worked
        · cases worked
  · rintro ⟨text, rfl, context, result, rfl, rfl⟩
    have read : sourceText (Utf8.encode text) = .ok (Text.unifyLineEnds text) :=
      sourceText_eq_ok_iff.mpr ⟨text, rfl, rfl⟩
    simp only [assembleInput, read, Assembler.run, result, Except.toOption]

theorem isFailure_of_assembleInput
    (failed : assembleInput settings path contents = .error outcome) :
    outcome.ending.IsFailure := by
  unfold assembleInput at failed
  split at failed
  · cases failed
    exact isFailure_failOnFile _ _ _
  · split at failed
    · cases failed
      exact .inl rfl
    · simp only at failed
      split at failed
      · cases failed
      · split at failed
        · cases failed
          exact .inl rfl
        · cases failed
          exact .inr ⟨_, rfl⟩
      · cases failed
        exact .inr ⟨_, rfl⟩

/-! ### The command -/

variable {system : FileSystem} {state after : system.State}

/-- The summary is the **last** that happens. It changes no file, and the command succeeds if it is
taken and breaks off if it is not. -/
theorem run_summarize (state : system.State) (summary out err : String) :
    ∃ outcome after, (summarize system.access summary out err).run state = (outcome, after) ∧
      system.SameFiles state after ∧
      (outcome.ending = .status 0 ∨ ∃ error, outcome.ending = .broken (.output error)) ∧
      (system.TakesAll → outcome.ending = .status 0) := by
  have same := FileSystem.sameFiles_print state summary
  cases taken : (system.print state summary).1 with
  | ok _ =>
      refine ⟨{ ending := .status 0, out := out ++ summary, err }, _, ?_, same, .inl rfl,
        fun _ => rfl⟩
      simp only [summarize, FileSystem.run_print_bind, taken]
      rfl
  | error error =>
      refine ⟨{ ending := .broken (.output error), out, err }, _, ?_, same, .inr ⟨error, rfl⟩,
        fun takes => ?_⟩
      · simp only [summarize, FileSystem.run_print_bind, taken]
        rfl
      · rw [takes] at taken
        cases taken

/-- What is left to happen once the output is **written**. The files stay as they are, and the
command succeeds or breaks off on standard output. -/
theorem run_announce (settings : Settings) (path : Text) (assembler : Assembler)
    (log : List LogRecord) (state : system.State) :
    ∃ outcome after, (announce system.access settings path assembler log).run state =
        (outcome, after) ∧ system.SameFiles state after ∧
      (outcome.ending = .status 0 ∨ ∃ error, outcome.ending = .broken (.output error)) ∧
      (system.TakesAll → outcome.ending = .status 0) := by
  cases lists : settings.listing with
  | false =>
      simp only [announce, lists]
      exact run_summarize state _ _ _
  | true =>
      simp only [announce, lists, if_true, FileSystem.run_print_bind]
      generalize asLines [String.ofList assembler.listingText] = listing
      have same := FileSystem.sameFiles_print state listing
      cases taken : (system.print state listing).1 with
      | ok _ =>
          obtain ⟨outcome, after, ran, still, ends, succeeds⟩ :=
            run_summarize (system.print state listing).2 _ listing _
          exact ⟨outcome, after, ran, same.trans still, ends, succeeds⟩
      | error error =>
          refine ⟨_, _, rfl, same, .inr ⟨error, rfl⟩, fun takes => ?_⟩
          rw [takes] at taken
          cases taken

/-- The command with an input that is assembled and an output that can be written has nothing left
to do but to say so. -/
theorem run_asm_of_written {input output : Text} (reads : settings.input = some input)
    (writes : settings.output = some output)
    (assembled : assembleInput settings input (system.read state input) = .ok (assembler, log))
    (written : system.write state output assembler.image = .ok after) :
    (asm system.access settings).run state =
      (announce system.access settings output assembler log).run after := by
  simp only [asm, reads, writes, FileSystem.run_read_bind, assembled,
    FileSystem.run_write_bind_of_ok written]

/-- How the command **ends**: it has written the image of its input to its output, or it has failed
and the files are as they were. -/
theorem run_asm_cases (settings : Settings) (state : system.State) :
    (∃ input output assembler log after, settings.input = some input ∧
        settings.output = some output ∧
        assembleInput settings input (system.read state input) = .ok (assembler, log) ∧
        system.write state output assembler.image = .ok after ∧
        (asm system.access settings).run state =
          (announce system.access settings output assembler log).run after) ∨
      ∃ outcome, outcome.ending.IsFailure ∧
        (asm system.access settings).run state = (outcome, state) := by
  cases reads : settings.input with
  | none =>
      refine .inr ⟨breakWith .pathMissing, .inr ⟨_, rfl⟩, ?_⟩
      simp only [asm, reads]
      rfl
  | some input =>
      cases assembled : assembleInput settings input (system.read state input) with
      | error outcome =>
          refine .inr ⟨outcome, isFailure_of_assembleInput assembled, ?_⟩
          simp only [asm, reads, FileSystem.run_read_bind, assembled]
          rfl
      | ok known =>
          obtain ⟨assembler, log⟩ := known
          cases writes : settings.output with
          | none =>
              refine .inr ⟨breakWith .pathMissing, .inr ⟨_, rfl⟩, ?_⟩
              simp only [asm, reads, FileSystem.run_read_bind, assembled, writes]
              rfl
          | some output =>
              cases written : system.write state output assembler.image with
              | error error =>
                  refine .inr ⟨_, isFailure_failOnFile (logLines settings.verbose log)
                    "write output" error, ?_⟩
                  simp only [asm, reads, FileSystem.run_read_bind, assembled, writes,
                    FileSystem.run_write_bind_of_error written]
                  rfl
              | ok after =>
                  exact .inl ⟨input, output, assembler, log, after, rfl, rfl, assembled, written,
                    run_asm_of_written reads writes assembled written⟩

/-- An input that is assembled has the image of its context: the assembler gives back what the
second pass has left. -/
theorem Assembled.exists_image {text : Text} (assembled : Assembled settings text assembler log) :
    ∃ context, (assemble settings.profile (Text.unifyLineEnds text)).result = .ok context ∧
      assembler.image = context.program := by
  obtain ⟨context, result, -, rfl⟩ := assembled
  exact ⟨context, result, rfl⟩

/-- The **output is written**: the input of the command could be read, the bytes read are those of a
text, the text with its line ends unified is assembled under the chosen profile, the output file
contains the image, and every other file contains what it did. -/
def Wrote (system : FileSystem) (settings : Settings) (state after : system.State) : Prop :=
  ∃ input output text context file, settings.input = some input ∧
    settings.output = some output ∧ system.read state input = .ok (Utf8.encode text) ∧
    (assemble settings.profile (Text.unifyLineEnds text)).result = .ok context ∧
    system.file? after output = some file ∧
    system.contents? after file = some context.program ∧
    ∀ other, other ≠ file → system.contents? after other = system.contents? state other

/-- A write of the image of the input writes the output, and what is printed then does not
change that. -/
theorem wrote_of_write {input output : Text} {later : system.State}
    (reads : settings.input = some input) (writes : settings.output = some output)
    (worked : assembleInput settings input (system.read state input) = .ok (assembler, log))
    (written : system.write state output assembler.image = .ok after)
    (same : system.SameFiles after later) : Wrote system settings state later := by
  obtain ⟨text, read, assembled⟩ := assembleInput_eq_ok_iff.mp worked
  obtain ⟨context, result, image⟩ := assembled.exists_image
  obtain ⟨file, names, contents, rest⟩ := system.contents_of_write written
  refine ⟨input, output, text, context, file, reads, writes, read, result, ?_, ?_, ?_⟩
  · rw [same.file?_eq, names]
  · rw [same.contents_eq, contents, image]
  · exact fun other different => (same.contents_eq other).trans (rest other different)

end ByteMachine.Command
