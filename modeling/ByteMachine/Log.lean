/-!
# Log records

What the parts of the toolchain note down while they work. A function that logs returns its
records beside its result, in the order in which they were made; who prints them, and from
which level up, is decided by the caller.
-/

namespace ByteMachine

/-- The **level** of a record, from the least to the most severe. -/
inductive LogLevel
  | debug
  | info
  | warning
  | error
  deriving DecidableEq, Repr

def LogLevel.name : LogLevel → String
  | .debug => "DEBUG"
  | .info => "INFO"
  | .warning => "WARNING"
  | .error => "ERROR"

/-- The rank of a level: more severe levels have larger ranks, and a log is cut at one of them. -/
def LogLevel.rank : LogLevel → Nat
  | .debug => 0
  | .info => 1
  | .warning => 2
  | .error => 3

/-- A **record**: its level, the part of the toolchain that made it, and the message. -/
structure LogRecord where
  level : LogLevel
  source : String
  message : String
  deriving DecidableEq, Repr

/-- A record as one line: its level, its source and its message. -/
def LogRecord.line (entry : LogRecord) : String :=
  s!"{entry.level.name} {entry.source}: {entry.message}"

/-- The records of at least the given level, in their order. -/
def LogRecord.atLeast (level : LogLevel) (log : List LogRecord) : List LogRecord :=
  log.filter fun entry => level.rank ≤ entry.level.rank

end ByteMachine
