import ByteMachine.Text.Quoted

/-!
# Options of the command line

The words that a command line may hold besides its file names, for the toolchain itself and
for each of its three commands. A flag stands alone, a setting takes a value, and both may
have a short spelling. A grammar lists the options of one command and the file names that it
needs, in order; the grammar of the toolchain takes a command instead.
-/

namespace ByteMachine.Command

/-- An option that **stands alone**, without a value behind it. -/
inductive Flag
  | help
  | version
  | listing
  | verbose
  | dumpRegisters
  | dumpRam
  | trace
  deriving DecidableEq, Repr

/-- An option that takes a **value**, the next word or behind an equals sign. -/
inductive Setting
  | profile
  | registers
  | ramSize
  deriving DecidableEq, Repr

/-- An **option** of a command line: a flag or a setting. -/
inductive Opt
  | flag (flag : Flag)
  | setting (setting : Setting)
  deriving DecidableEq, Repr

/-- The spellings of a flag, each of which may be used. -/
def Flag.spellings : Flag → List Text
  | help => ["-h".toList, "--help".toList]
  | version => ["--version".toList]
  | listing => ["--listing".toList]
  | verbose => ["-v".toList, "--verbose".toList]
  | dumpRegisters => ["--dump-regs".toList]
  | dumpRam => ["--dump-ram".toList]
  | trace => ["--trace".toList]

/-- The spellings of a setting, each of which may be used. -/
def Setting.spellings : Setting → List Text
  | profile => ["--profile".toList]
  | registers => ["--registers".toList]
  | ramSize => ["--ram-size".toList]

/-- The spellings of an option. -/
def Opt.spellings : Opt → List Text
  | flag f => f.spellings
  | setting s => s.spellings

/-- An option as an error names it: its spellings with slashes between them. -/
def Opt.shown (opt : Opt) : Text :=
  Text.joinWith ['/'] opt.spellings

/-- A **file name** that a command needs, for what it reads or what it writes. -/
inductive FileRole
  | input
  | output
  deriving DecidableEq, Repr

/-- The name of a role. -/
def FileRole.name : FileRole → Text
  | input => "input".toList
  | output => "output".toList

/-- The **commands** of the toolchain. -/
inductive Verb
  | asm
  | run
  | disasm
  deriving DecidableEq, Repr

namespace Verb

/-- All commands. -/
def all : List Verb := [asm, run, disasm]

/-- The word for a command. -/
def name : Verb → Text
  | asm => "asm".toList
  | run => "run".toList
  | disasm => "disasm".toList

/-- The command of a given word, if there is one. -/
def ofName? (name : Text) : Option Verb :=
  all.find? fun verb => verb.name = name

end Verb

/-- A **grammar**: the options, and the file names or the command that stand beside them. -/
structure Grammar where
  options : List Opt
  files : List FileRole := []
  takesCommand : Bool := false
  deriving DecidableEq, Repr

/-- The grammar of the toolchain. -/
def mainGrammar : Grammar where
  options := [.flag .help, .flag .version]
  takesCommand := true

/-- The grammar of a command. -/
def Verb.grammar : Verb → Grammar
  | asm => {
      options := [.flag .help, .setting .profile, .flag .listing, .flag .verbose]
      files := [.input, .output] }
  | run => {
      options :=
        [.flag .help, .setting .profile, .setting .registers, .setting .ramSize,
         .flag .dumpRegisters, .flag .dumpRam, .flag .trace, .flag .verbose]
      files := [.input] }
  | disasm => {
      options := [.flag .help, .setting .profile, .flag .verbose]
      files := [.input] }

namespace Grammar

/-- All spellings with their options, in order. -/
def spellings (grammar : Grammar) : List (Text × Opt) :=
  grammar.options.flatMap fun opt => opt.spellings.map fun spelling => (spelling, opt)

/-- The option of a given spelling, which must be written out. -/
def option? (grammar : Grammar) (spelling : Text) : Option Opt :=
  grammar.spellings.lookup spelling

end Grammar

/-! ### Misuse -/

/-- A command line that is **misused**, with what is wrong about it. -/
inductive Misuse
  | ambiguous (word : Text) (candidates : List Text)
  | valueMissing (opt : Opt)
  /-- A flag is given a value. -/
  | valueIgnored (opt : Opt) (value : Text)
  | filesMissing (roles : List FileRole)
  | unrecognized (words : List Text)
  | unknownCommand (name : Text)
  | unknownProfile (name : Text) (choices : List Text)
  | notInteger (opt : Opt) (value : Text)
  | notPositive (opt : Opt) (value : Text)
  deriving DecidableEq, Repr

/-- A choice among words, as an error lists it. -/
def choiceMessage (value : Text) (choices : List Text) : Text :=
  "invalid choice: ".toList ++ Text.quoted value ++ " (choose from ".toList ++
    Text.joinWith [',', ' '] (choices.map Text.quoted) ++ [')']

/-- An error about one argument. -/
def argumentMessage (argument message : Text) : Text :=
  "argument ".toList ++ argument ++ ": ".toList ++ message

/-- The message about a misuse, behind the word that it is about. -/
def Misuse.message : Misuse → Text
  | ambiguous word candidates =>
    "ambiguous option: ".toList ++ word ++ " could match ".toList ++
      Text.joinWith [',', ' '] candidates
  | valueMissing opt => argumentMessage opt.shown "expected one argument".toList
  | valueIgnored opt value =>
    argumentMessage opt.shown ("ignored explicit argument ".toList ++ Text.quoted value)
  | filesMissing roles =>
    "the following arguments are required: ".toList ++
      Text.joinWith [',', ' '] (roles.map FileRole.name)
  | unrecognized words => "unrecognized arguments: ".toList ++ Text.joinWith [' '] words
  | unknownCommand name =>
    argumentMessage "command".toList (choiceMessage name (Verb.all.map Verb.name))
  | unknownProfile name choices =>
    argumentMessage (Opt.setting .profile).shown (choiceMessage name choices)
  | notInteger opt value =>
    argumentMessage opt.shown ("not an integer: ".toList ++ Text.quoted value)
  | notPositive opt value =>
    argumentMessage opt.shown ("must be positive: ".toList ++ Text.quoted value)

end ByteMachine.Command
