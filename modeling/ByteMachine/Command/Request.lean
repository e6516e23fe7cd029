import ByteMachine.Command.Scan
import ByteMachine.Profile
import ByteMachine.Text.IntegerLiteral
import ByteMachine.Machine.Ram

/-!
# Requests

What a command line asks for. Its events are met in order: asking for help or for the version
ends the reading at once, a wrong value is an error where it stands, and of a setting that
is given twice the last value holds. What is left over or missing is an error at the end.
The options of a command are read by the command, but words that are left over there are
reported by the toolchain, behind its own.
-/

namespace ByteMachine.Command

/-- The **settings** of a command. Those that a command does not have keep their defaults. -/
structure Settings where
  input : Option Text := none
  output : Option Text := none
  profile : Profile := Profile.default
  registerCount : Int := defaultRegisterCount
  ramSize : Int := defaultRamSize
  listing : Bool := false
  verbose : Bool := false
  dumpRegisters : Bool := false
  dumpRam : Bool := false
  trace : Bool := false
  deriving DecidableEq, Repr

/-- Who reports a misuse and prints a help page: the toolchain, or a command. -/
abbrev Reporter := Option Verb

/-- What a command line **asks for**: a page, the version, or a command with its settings. -/
inductive Request
  | help (page : Reporter)
  | version
  | misuse (reporter : Reporter) (misuse : Misuse)
  | perform (verb : Verb) (settings : Settings)
  deriving DecidableEq, Repr

/-- The grammar that a reporter reads with. -/
def grammarOf : Reporter → Grammar
  | none => mainGrammar
  | some verb => verb.grammar

/-- The words that are left over when all file names are placed, in order. -/
def Scan.surplus (scan : Scan) : List Text :=
  scan.events.filterMap fun
    | .surplus word => some word
    | _ => none

/-- A value that must be a positive integer, in the form that integers are read in. -/
def positive (setting : Setting) (value : Text) : Except Misuse Int :=
  match Text.integer? value with
  | none => .error (.notInteger (.setting setting) value)
  | some n => if 0 < n then .ok n else .error (.notPositive (.setting setting) value)

/-- A value that must be the name of a profile, exactly as it is listed. -/
def namedProfile (value : Text) : Except Misuse Profile :=
  match Profile.named.find? fun profile => profile.name.toList = value with
  | some profile => .ok profile
  | none => .error (.unknownProfile value (Profile.named.map fun profile => profile.name.toList))

namespace Settings

/-- The settings after a flag that does not end the reading. -/
def raise (settings : Settings) : Flag → Settings
  | .listing => { settings with listing := true }
  | .verbose => { settings with verbose := true }
  | .dumpRegisters => { settings with dumpRegisters := true }
  | .dumpRam => { settings with dumpRam := true }
  | .trace => { settings with trace := true }
  | .help | .version => settings

/-- The settings after a value was given for one of them. -/
def assign (settings : Settings) (setting : Setting) (value : Text) : Except Misuse Settings :=
  match setting with
  | .profile => do return { settings with profile := ← namedProfile value }
  | .registers => do return { settings with registerCount := ← positive setting value }
  | .ramSize => do return { settings with ramSize := ← positive setting value }

/-- The settings after a file name was found for a role, or left out. -/
def place (settings : Settings) : FileRole → Option Text → Settings
  | .input, path => { settings with input := path }
  | .output, path => { settings with output := path }

end Settings

/-- Meets the events of a command in order, up to what ends the reading. -/
def meet (verb : Verb) (settings : Settings) : List Event → Except Request Settings
  | [] => .ok settings
  | .flag .help :: _ => .error (.help (some verb))
  | .flag .version :: _ => .error .version
  | .flag flag :: events => meet verb (settings.raise flag) events
  | .setting setting value :: events =>
    match settings.assign setting value with
    | .ok settings => meet verb settings events
    | .error misuse => .error (.misuse (some verb) misuse)
  | .file role path :: events => meet verb (settings.place role path) events
  | .command _ _ :: events => meet verb settings events
  | .surplus _ :: events => meet verb settings events

/-- Reads the words of a command: its settings, and the words that are left over. -/
def readCommand (verb : Verb) (words : List Text) :
    Except Request (Settings × List Text) := do
  let scan := verb.grammar.scanWords words
  let settings ← meet verb {} scan.events
  match scan.misuse? with
  | some misuse => throw (.misuse (some verb) misuse)
  | none => return (settings, scan.surplus)

/-- A **command** that was read: its settings, and the words that are left over in it. -/
structure Reading where
  verb : Verb
  settings : Settings
  surplus : List Text
  deriving DecidableEq, Repr

/-- Meets the events of the **toolchain** in order, up to the command or to what ends the
reading. -/
def meetMain : List Event → Except Request (Option Reading)
  | [] => .ok none
  | .flag .help :: _ => .error (.help none)
  | .flag .version :: _ => .error .version
  | .command name words :: _ =>
    match Verb.ofName? name with
    | none => .error (.misuse none (.unknownCommand name))
    | some verb =>
      (readCommand verb words).map fun (settings, surplus) => some ⟨verb, settings, surplus⟩
  | _ :: events => meetMain events

/-- The request for a command that was read without an error. -/
def requestFor (command : Option Reading) : Request :=
  match command with
  | none => .help none
  | some reading => .perform reading.verb reading.settings

/-- The request of a command line. One without a command asks for help. -/
def Request.ofWords (words : List Text) : Request :=
  let scan := mainGrammar.scanWords words
  match meetMain scan.events, scan.misuse? with
  | .error request, _ => request
  | .ok _, some error => .misuse none error
  | .ok command, none =>
    let surplus := scan.surplus ++ (command.map Reading.surplus).getD []
    if surplus = [] then requestFor command else .misuse none (.unrecognized surplus)

end ByteMachine.Command
