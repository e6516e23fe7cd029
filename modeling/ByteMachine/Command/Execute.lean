import ByteMachine.Command.Help
import ByteMachine.Disassembly

/-!
# The commands

What each command reads, writes and prints. A command reaches files and standard output only
through a `SystemAccess`, so the same definitions serve the system and a `Disk`. `asm` writes its
output after everything that can fail on its input, so that a failed assembly leaves all files as
they were. What it prints comes last: once the output is written, the one thing that can still go
wrong is that standard output refuses the listing or the summary.

A command ends with a status: 0 for success, 1 for an error, 2 for a misuse and 3 for a run
that ends in a fault. It breaks off on the few failures that it does not report: an integer that is
too long to be read or written, a path with a NUL character, a missing path, and a text that
standard output refuses.
-/

namespace ByteMachine.Command

/-- A failure that a command does **not report**: it leaves the program by an exception. -/
inductive Break
  | assembly (failure : Failure)
  | path (error : FileError)
  | pathMissing
  | output (error : OutputError)
  deriving DecidableEq, Repr

/-- The message of a failure that is not reported, as it ends the output. -/
def Break.message : Break → String
  | assembly failure => failure.message
  | path error => error.message
  | pathMissing => "expected str, bytes or os.PathLike object, not list"
  | output error => error.reason

/-- How a command **ends**: with a status, by breaking off, or not at all. -/
inductive Ending
  | status (code : UInt32)
  | broken (reason : Break)
  /-- A run that never stops. -/
  | endless
  deriving DecidableEq, Repr

/-- The **outcome** of a command: how it ends, what standard output took, and what it wrote to the
error output. -/
structure Outcome where
  ending : Ending
  out : String := ""
  err : String := ""
  deriving DecidableEq, Repr

/-- Texts as lines, each with a line end. -/
def asLines (texts : List String) : String :=
  String.join (texts.map (· ++ "\n"))

/-- The part of a log that a command prints: warnings and errors, or everything. -/
def logLines (verbose : Bool) (log : List LogRecord) : String :=
  asLines ((LogRecord.atLeast (if verbose then .debug else .warning) log).map LogRecord.line)

/-- The end of a command that reports an error, with what it has printed before. -/
def failWith (before message : String) : Outcome :=
  { ending := .status 1, err := before ++ asLines [message] }

/-- The end of a command that breaks off, with nothing reported. -/
def breakWith (reason : Break) : Outcome :=
  { ending := .broken reason }

/-- The end of a command on a file that it cannot read or write. -/
def failOnFile (before action : String) (error : FileError) : Outcome :=
  if error.kind = .embeddedNul then breakWith (.path error)
  else
    failWith before
      s!"Error: Unable to {action} file {String.ofList error.path}: {error.kind.reason}"

/-! ### Assembling -/

/-- What `asm` knows about its input: the image with its context and log, or how the
command ends. -/
def assembleInput (settings : Settings) (path : Text) (contents : Except FileError (List UInt8)) :
    Except Outcome (Assembler × List LogRecord) :=
  match contents with
  | .error error => .error (failOnFile "" "open source" error)
  | .ok bytes =>
    match sourceText bytes with
    | .error fault =>
      .error (failWith ""
        s!"Error: Unable to open source file {String.ofList path}: {fault.message}")
    | .ok source =>
      let (assembler, assembly) := ({ profile := settings.profile } : Assembler).run source
      match assembly.result with
      | .ok _ => .ok (assembler, assembly.log)
      | .error failure@(.rejected error) =>
        match error.message with
        | .ok message =>
          .error (failWith (logLines settings.verbose assembly.log) s!"Assembly error: {message}")
        | .error _ => .error (breakWith (.assembly failure))
      | .error failure => .error (breakWith (.assembly failure))

/-- What `asm` logs between the listing and the summary. -/
def summaryRecord (settings : Settings) (assembler : Assembler) : LogRecord :=
  ⟨.info, programName, s!"Profile {settings.profile.name}, {assembler.labels.length} label(s)"⟩

variable {m : Type → Type} [Monad m]

/-- The last that `asm` does: it prints the **summary** behind what was printed before. Standard
output may refuse that, and then the command breaks off. -/
def summarize (system : SystemAccess m) (summary out err : String) : m Outcome := do
  match ← system.print summary with
  | .error error => return { ending := .broken (.output error), out, err }
  | .ok () => return { ending := .status 0, out := out ++ summary, err }

/-- What `asm` does when its output is **written**. Standard output may refuse the listing, too, and
then there is no summary. -/
def announce (system : SystemAccess m) (settings : Settings) (path : Text) (assembler : Assembler)
    (log : List LogRecord) : m Outcome := do
  let listing :=
    if settings.listing then asLines [String.ofList assembler.listingText] else ""
  let summary := asLines
    [s!"Assembled {assembler.image.length} bytes -> {String.ofList path}"]
  match ← (if settings.listing then system.print listing else pure (.ok ())) with
  | .error error =>
    return { ending := .broken (.output error), err := logLines settings.verbose log }
  | .ok () =>
    summarize system summary listing
      (logLines settings.verbose (log ++ [summaryRecord settings assembler]))

/-- The command `asm`: reads a program text, assembles it, writes the image and prints about it, in
this order. -/
def asm (system : SystemAccess m) (settings : Settings) : m Outcome := do
  let some input := settings.input | return breakWith .pathMissing
  match assembleInput settings input (← system.read input) with
  | .error outcome => return outcome
  | .ok (assembler, log) =>
    let some output := settings.output | return breakWith .pathMissing
    match ← system.write output assembler.image with
    | .error error => return failOnFile (logLines settings.verbose log) "write output" error
    | .ok () => announce system settings output assembler log

/-! ### Printing at the end -/

/-- Prints what a command that only reads has to say, when it has come to its end. -/
def deliver (system : SystemAccess m) (outcome : Outcome) : m Outcome := do
  match ← system.print outcome.out with
  | .error error => return { ending := .broken (.output error), err := outcome.err }
  | .ok () => return outcome

/-! ### Running -/

/-- What `run` prints about a **run** that has ended: what the program has shown, its trace, how it
stopped, and what was to be dumped. -/
def ranOutcome (settings : Settings) (launch : Launch) : Outcome :=
  let machine := launch.ending.machine
  let effects := launch.ending.effects
  let logged := logLines settings.verbose effects.log
  let traced :=
    if settings.trace then asLines (machine.traceLines.map String.ofList) else ""
  let registers :=
    if settings.dumpRegisters then [String.ofList machine.registers.table] else []
  let ram :=
    if settings.dumpRam then
      [String.ofList (Text.unlines ((machine.ram.hexdump? 16).getD []))]
    else []
  let printed := String.ofList effects.printed
  match machine.fault with
  | some fault =>
    { ending := .status 3
      out := printed ++ asLines (registers ++ ram)
      err := logged ++ traced ++ asLines [s!"Fault: {fault.cause.message}"] }
  | none =>
    match launch.ending.reason? with
    | none => { ending := .endless, out := printed, err := logged }
    | some _ =>
      { ending := .status 0
        out := printed ++ asLines ("Program exited." :: registers ++ ram)
        err := logged ++ traced }

/-- What `run` does with the contents of its input, which it takes for an image as they are. -/
def runImage (settings : Settings) (image : List UInt8) : Outcome :=
  let run : RunSettings := {
    profile := .given settings.profile
    registerCount := settings.registerCount
    ramSize := settings.ramSize
    tracing := settings.trace }
  match launch run image with
  | .ok launch => ranOutcome settings launch
  | .error error => failWith "" error.message

/-- A command that reads an image and prints what `answer` makes of it. -/
def withImage (system : SystemAccess m) (settings : Settings) (answer : List UInt8 → Outcome) :
    m Outcome := do
  let some input := settings.input | return breakWith .pathMissing
  match ← system.read input with
  | .error error => return failOnFile "" "open binary" error
  | .ok image => deliver system (answer image)

/-- The command `run`: reads an image and runs it on a new machine. -/
def run (system : SystemAccess m) (settings : Settings) : m Outcome :=
  withImage system settings (runImage settings)

/-! ### Disassembling -/

/-- What `disasm` does with the contents of its input: a line for each row. -/
def disassembleImage (settings : Settings) (image : List UInt8) : Outcome :=
  let rows := disassemble settings.profile image
  { ending := .status 0, out := asLines (rows.map fun row => String.ofList row.text) }

/-- The command `disasm`: reads an image and prints its disassembly. -/
def disasm (system : SystemAccess m) (settings : Settings) : m Outcome :=
  withImage system settings (disassembleImage settings)

/-! ### Any command line -/

/-- Carries out a request, on the system that it is given. -/
def Request.carryOut (system : SystemAccess m) : Request → m Outcome
  | .help page => deliver system { ending := .status 0, out := asLines (helpPage page) }
  | .version => deliver system { ending := .status 0, out := asLines [versionLine] }
  | .misuse reporter error => return {
      ending := .status 2
      err := asLines <| usage reporter ++
        [s!"{reporterName reporter}: error: {String.ofList error.message}"] }
  | .perform .asm settings => asm system settings
  | .perform .run settings => run system settings
  | .perform .disasm settings => disasm system settings

/-- Carries out the request of a command line, which may be no more than a page of help. -/
def execute (system : SystemAccess m) (words : List Text) : m Outcome :=
  (Request.ofWords words).carryOut system

end ByteMachine.Command
