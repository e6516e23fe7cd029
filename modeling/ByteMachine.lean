import ByteMachine.Assembler
import ByteMachine.Assembly.Context
import ByteMachine.Assembly.Encode
import ByteMachine.Assembly.Listing
import ByteMachine.Assembly.Pass
import ByteMachine.Assembly.Session
import ByteMachine.Command.Execute
import ByteMachine.Command.Help
import ByteMachine.Command.Options
import ByteMachine.Command.Request
import ByteMachine.Command.Scan
import ByteMachine.Disassembly
import ByteMachine.Files.Disk
import ByteMachine.Files.Error
import ByteMachine.Instruction.Basic
import ByteMachine.Instruction.Decode
import ByteMachine.Instruction.Table
import ByteMachine.Log
import ByteMachine.Machine.Basic
import ByteMachine.Machine.Execute
import ByteMachine.Machine.Fetch
import ByteMachine.Machine.Ram
import ByteMachine.Machine.Registers
import ByteMachine.Machine.Run
import ByteMachine.Machine.Session
import ByteMachine.Machine.Step
import ByteMachine.Main
import ByteMachine.Profile
import ByteMachine.Proofs.Assembly.Acceptance
import ByteMachine.Proofs.Assembly.Addresses
import ByteMachine.Proofs.Assembly.Emission
import ByteMachine.Proofs.Assembly.Encoding
import ByteMachine.Proofs.Assembly.Image
import ByteMachine.Proofs.Assembly.Layout
import ByteMachine.Proofs.Assembly.Linking
import ByteMachine.Proofs.Assembly.Placing
import ByteMachine.Proofs.Assembly.Profiles
import ByteMachine.Proofs.Assembly.Refusal
import ByteMachine.Proofs.Assembly.Rejection
import ByteMachine.Proofs.Assembly.Result
import ByteMachine.Proofs.Disassembly.Images
import ByteMachine.Proofs.Disassembly.Recovery
import ByteMachine.Proofs.Disassembly.RoundTrip
import ByteMachine.Proofs.Machine.AcrossProfiles
import ByteMachine.Proofs.Machine.Completion
import ByteMachine.Proofs.Machine.Confinement
import ByteMachine.Proofs.Machine.ControlFlow
import ByteMachine.Proofs.Machine.Effect
import ByteMachine.Proofs.Machine.Faults
import ByteMachine.Proofs.Machine.Fetch
import ByteMachine.Proofs.Machine.Forward
import ByteMachine.Proofs.Machine.Integrity
import ByteMachine.Proofs.Machine.Loaded
import ByteMachine.Proofs.Machine.Lockstep
import ByteMachine.Proofs.Machine.Place
import ByteMachine.Proofs.Machine.Recurrence
import ByteMachine.Proofs.Machine.Reload
import ByteMachine.Proofs.Machine.Run
import ByteMachine.Proofs.Machine.Session
import ByteMachine.Proofs.Machine.Source
import ByteMachine.Proofs.Machine.Step
import ByteMachine.Proofs.Machine.Stopped
import ByteMachine.Proofs.Machine.StraightLine
import ByteMachine.Proofs.Machine.Unbounded
import ByteMachine.Proofs.Source.FirstDefect
import ByteMachine.Proofs.Source.Grammar
import ByteMachine.Proofs.Source.Printed
import ByteMachine.Proofs.Source.Statement
import ByteMachine.Proofs.Source.Token
import ByteMachine.Proofs.Source.Written
import ByteMachine.Source.Error
import ByteMachine.Source.Line
import ByteMachine.Source.Operand
import ByteMachine.Text.Basic
import ByteMachine.Text.DecimalDigit
import ByteMachine.Text.IntegerLiteral
import ByteMachine.Text.Numeral
import ByteMachine.Text.Printable
import ByteMachine.Text.Quoted
import ByteMachine.Text.Utf8
import ByteMachine.Toolchain
import ByteMachine.Proofs.Assembly.Listing
import ByteMachine.Proofs.Machine.Tracing
import ByteMachine.Proofs.Source.Correspondence
import ByteMachine.Proofs.Assembly.Spacing
import ByteMachine.Proofs.Command.Assembling
import ByteMachine.Proofs.Assembly.Interruption
import ByteMachine.Proofs.Assembly.LastRun
import ByteMachine.Proofs.Disassembly.Reassembly
import ByteMachine.Proofs.Disassembly.Fetching
import ByteMachine.Proofs.Source.Tokenisation
import ByteMachine.Proofs.Assembly.Renaming
import ByteMachine.Proofs.Machine.TraceRecord
import ByteMachine.Proofs.Machine.Memory
import ByteMachine.Proofs.Machine.Observations
import ByteMachine.Proofs.Source.Operand
