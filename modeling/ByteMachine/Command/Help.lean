import ByteMachine.Command.Request
import ByteMachine.Toolchain

/-!
# Help pages

The pages that the toolchain and its commands print when they are asked for help, and the
name under which each of them reports a misuse.
-/

namespace ByteMachine.Command

/-- The name of the program, as its pages and its errors begin with it. -/
def programName : String := "soc8kit"

/-- The **name** under which a reporter speaks: the program, or the program with a command. -/
def reporterName : Reporter → String
  | none => programName
  | some verb => programName ++ " " ++ String.ofList verb.name

/-- The line that tells the version of the program. -/
def versionLine : String := s!"{programName} {version}"

/-- A profile in the page of the toolchain: its name and its description. -/
def profileLine (profile : Profile) : String :=
  "  " ++ String.ofList (Text.padRight 10 profile.name.toList) ++ " " ++ profile.description

/-- The page of the toolchain. -/
def mainPage : List String :=
  [ "usage: soc8kit [-h] [--version] command ...",
    "",
    "SOC8 toolchain — assemble, run, disassemble",
    "",
    "positional arguments:",
    "  command",
    "    asm       Assemble SOC8 source to a raw binary",
    "    run       Execute a binary in the emulator",
    "    disasm    Disassemble a binary",
    "",
    "options:",
    "  -h, --help  show this help message and exit",
    "  --version   show program's version number and exit",
    "",
    "profiles:" ] ++ Profile.named.map profileLine

/-- The part of a page about the choice of a profile. -/
def profileHelp : List String :=
  [ "  --profile \x7bclassic,resolved\x7d",
    "                        ISA profile (default: classic)" ]

/-- The part of a page about help. -/
def helpHelp : String := "  -h, --help            show this help message and exit"

/-- The page of a command: how it is used, its files and its options. -/
def verbPage : Verb → List String
  | .asm =>
    [ "usage: soc8kit asm [-h] [--profile \x7bclassic,resolved\x7d] [--listing] [-v]",
      "                   input output",
      "",
      "positional arguments:",
      "  input                 Input .asm file",
      "  output                Output .bin file",
      "",
      "options:",
      helpHelp ] ++ profileHelp ++
    [ "  --listing             Print listing to stdout",
      "  -v, --verbose" ]
  | .run =>
    [ "usage: soc8kit run [-h] [--profile \x7bclassic,resolved\x7d] [--registers REGISTERS]",
      "                   [--ram-size RAM_SIZE] [--dump-regs] [--dump-ram] [--trace]",
      "                   [-v]",
      "                   input",
      "",
      "positional arguments:",
      "  input                 Input .bin file",
      "",
      "options:",
      helpHelp ] ++ profileHelp ++
    [ "  --registers REGISTERS",
      "                        Register count (default: 20)",
      "  --ram-size RAM_SIZE   RAM size in bytes (default: 256)",
      "  --dump-regs           Print final register values",
      "  --dump-ram            Print a hex dump of RAM after execution",
      "  --trace               Print an instruction trace to stderr",
      "  -v, --verbose" ]
  | .disasm =>
    [ "usage: soc8kit disasm [-h] [--profile \x7bclassic,resolved\x7d] [-v] input",
      "",
      "positional arguments:",
      "  input                 Input .bin file",
      "",
      "options:",
      helpHelp ] ++ profileHelp ++
    [ "  -v, --verbose" ]

/-- The lines of a help page, that of the toolchain or of one command. -/
def helpPage : Reporter → List String
  | none => mainPage
  | some verb => verbPage verb

/-- The usage: the part of a page that stands in front of the report of a misuse. -/
def usage (reporter : Reporter) : List String :=
  (helpPage reporter).takeWhile (· ≠ "")

end ByteMachine.Command
