import ByteMachine.Text.Basic

/-!
# Reading UTF-8

The text that a byte sequence stands for, or the first place where it is no UTF-8. The
reader takes one byte at a time: between characters a byte must start a sequence, and
inside a sequence it must lie in the range that is due there. The range of the second byte
depends on the first one, which keeps out overlong forms, surrogates and code points above
`U+10FFFF`.

A fault names the bytes of the broken sequence that were still right: the byte itself when
it cannot start a sequence, otherwise the sequence up to the byte that does not continue it,
or up to the end of the input.
-/

namespace ByteMachine.Utf8

/-- Why a byte sequence is not UTF-8. -/
inductive Reason
  | invalidStart
  | invalidContinuation
  | unexpectedEnd
  deriving DecidableEq, Repr

def Reason.message : Reason → String
  | .invalidStart => "invalid start byte"
  | .invalidContinuation => "invalid continuation byte"
  | .unexpectedEnd => "unexpected end of data"

/-- A **fault**: the position and value of the first byte of the broken sequence, the number
of its bytes that were still right, and the reason. -/
structure Fault where
  position : Nat
  byte : UInt8
  count : Nat
  reason : Reason
  deriving DecidableEq, Repr

/-- The message of a fault. One byte is shown by its value, several by their positions. -/
def Fault.message (fault : Fault) : String :=
  let place :=
    if fault.count = 1 then
      let digits := Text.padLeft 2 '0' (Nat.toDigits 16 fault.byte.toNat)
      s!"byte 0x{String.ofList digits} in position {fault.position}"
    else
      s!"bytes in position {fault.position}-{fault.position + fault.count - 1}"
  s!"'utf-8' codec can't decode {place}: {fault.reason.message}"

/-- Inclusive range of the bytes that may stand at one place of a sequence. The first byte decides
on the range of the second. -/
abbrev Range := UInt8 × UInt8

/-- The range of every byte after the second one. -/
def tailRange : Range := (0x80, 0xBF)

/-- What a **first byte** announces: the leading bits of the code point and the ranges of
the bytes that must follow; `none` if no sequence starts with it. -/
def announce? (byte : UInt8) : Option (Nat × List Range) :=
  let b := byte.toNat
  if b ≤ 0x7F then some (b, [])
  else if b < 0xC2 then none
  else if b ≤ 0xDF then some (b % 0x20, [tailRange])
  else if b = 0xE0 then some (b % 0x10, [(0xA0, 0xBF), tailRange])
  else if b = 0xED then some (b % 0x10, [(0x80, 0x9F), tailRange])
  else if b ≤ 0xEF then some (b % 0x10, [tailRange, tailRange])
  else if b = 0xF0 then some (b % 0x08, [(0x90, 0xBF), tailRange, tailRange])
  else if b ≤ 0xF3 then some (b % 0x08, [tailRange, tailRange, tailRange])
  else if b = 0xF4 then some (b % 0x08, [(0x80, 0x8F), tailRange, tailRange])
  else none

/-- A sequence that has been **started** and is not complete: its place, first byte and
length so far, the bits read, the range due next, and those due after it. -/
structure Started where
  position : Nat
  byte : UInt8
  count : Nat
  code : Nat
  due : Range
  later : List Range

/-- The fault of a started sequence that does not go on. -/
def Started.fault (started : Started) (reason : Reason) : Fault :=
  ⟨started.position, started.byte, started.count, reason⟩

/-- Reads on at `position`, inside the sequence `started` if there is one. -/
def decodeFrom : Nat → Option Started → List UInt8 → Except Fault Text
  | _, none, [] => .ok []
  | _, some started, [] => .error (started.fault .unexpectedEnd)
  | position, none, byte :: rest =>
    match announce? byte with
    | none => .error ⟨position, byte, 1, .invalidStart⟩
    | some (code, []) => (decodeFrom (position + 1) none rest).map (Char.ofNat code :: ·)
    | some (code, due :: later) =>
      decodeFrom (position + 1) (some ⟨position, byte, 1, code, due, later⟩) rest
  | position, some started, byte :: rest =>
    if started.due.1 ≤ byte && byte ≤ started.due.2 then
      let code := started.code * 0x40 + byte.toNat % 0x40
      match started.later with
      | [] => (decodeFrom (position + 1) none rest).map (Char.ofNat code :: ·)
      | due :: later =>
        decodeFrom (position + 1)
          (some { started with count := started.count + 1, code, due, later }) rest
    else .error (started.fault .invalidContinuation)

/-- The **text** that the bytes stand for, or the first fault in them. Nothing is replaced, and no
mark at the beginning is dropped. -/
def decode (bytes : List UInt8) : Except Fault Text :=
  decodeFrom 0 none bytes

end ByteMachine.Utf8
