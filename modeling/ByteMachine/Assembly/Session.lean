import ByteMachine.Assembler

/-!
# Assembly sessions

What can be asked of a context or of an assembler from outside, as data. An action on a
context that takes program text reads its lines first and fails without touching the context
if that fails; a pass that fails keeps what it has done.
-/

namespace ByteMachine

/-! ### Contexts -/

/-- What can be asked of a **context**, one constructor for each of its methods. -/
inductive Context.Action
  | firstPass (source : Text)
  | secondPass (source : Text)
  | emit (bytes : List UInt8)
  /-- Declares a label for a line. -/
  | addLabel (name : Text) (address : Int) (place : Place)
  | findLabel (name : Text) (place : Place)
  | sizeOf (place : Place)
  /-- Encodes a line and records its site, without emitting its bytes. -/
  | encodeLine (place : Place)
  deriving DecidableEq, Repr

/-- What an action on a context **answers**, or the failure that it ends with. -/
inductive Context.Answer
  | done
  | number (n : Nat)
  | bytes (bytes : List UInt8)
  | label (label : Label)
  | failed (failure : Failure)
  deriving DecidableEq, Repr

namespace Context

/-- What comes of an action on a context: the context that it leaves, the answer and the log. -/
structure Reply where
  context : Context
  answer : Answer
  log : List LogRecord := []
  deriving DecidableEq, Repr

def answer {α : Type} (wrap : α → Answer) : Except Failure α → Answer
  | .ok value => wrap value
  | .error failure => .failed failure

/-- The reply for a pass, whose context is kept also where the pass fails. -/
def passReply {α : Type} (wrap : α → Answer) (pass : Pass α) : Reply :=
  ⟨pass.context, answer wrap pass.result, pass.log⟩

/-- **Performs** an action on a context, whose state is kept whether the action succeeds or not. -/
def perform (context : Context) : Action → Reply
  | .firstPass source =>
    match readSource source with
    | .ok lines => passReply .number (context.firstPass lines)
    | .error failure => { context, answer := .failed failure }
  | .secondPass source =>
    match readSource source with
    | .ok lines => passReply .bytes (context.secondPass lines)
    | .error failure => { context, answer := .failed failure }
  | .emit bytes => { context := context.emit bytes, answer := .done }
  | .addLabel name address place =>
    match (readLine place).bind fun line => context.addLabel name address line.place with
    | .ok extended => { context := extended, answer := .done }
    | .error failure => { context, answer := .failed failure }
  | .findLabel name place =>
    let found := (readLine place).bind fun line => context.findLabel name line.place
    { context, answer := answer .label found }
  | .sizeOf place =>
    let size := (readLine place).map fun line => context.sizeOf line.statement
    { context, answer := answer .number size }
  | .encodeLine place =>
    match (readLine place).bind context.encodeNext with
    | .ok (extended, bytes) => { context := extended, answer := .bytes bytes }
    | .error failure => { context, answer := .failed failure }

end Context

/-! ### Assemblers -/

/-- What can be asked of an **assembler**, one constructor for each of its methods. -/
inductive Assembler.Action
  | assemble (source : Text)
  | image
  | labels
  | listing
  | context
  deriving DecidableEq, Repr

/-- What an action on an assembler **answers**, or the failure that it ends with. -/
inductive Assembler.Answer
  | image (bytes : List UInt8)
  | labels (labels : List (Text × Int))
  | listing (text : Text)
  | context (context : Option Context)
  | failed (failure : Failure)
  deriving DecidableEq, Repr

namespace Assembler

/-- What comes of an action on an assembler: the assembler that it leaves, the answer and the
log. -/
structure Reply where
  assembler : Assembler
  answer : Answer
  log : List LogRecord := []
  deriving DecidableEq, Repr

/-- Performs an action on an assembler. Only an assembly changes what it remembers. -/
def perform (assembler : Assembler) : Action → Reply
  | .assemble source =>
    let (after, assembly) := assembler.run source
    match assembly.result with
    | .ok context => ⟨after, .image context.program, assembly.log⟩
    | .error failure => ⟨after, .failed failure, assembly.log⟩
  | .image => { assembler, answer := .image assembler.image }
  | .labels => { assembler, answer := .labels assembler.labels }
  | .listing => { assembler, answer := .listing assembler.listingText }
  | .context => { assembler, answer := .context assembler.context }

end Assembler

end ByteMachine
