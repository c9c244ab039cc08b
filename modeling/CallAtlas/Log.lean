/-!
# Log entries

What the program reports while it works, as data: a level, the part of the program that speaks, and
a message.
-/

namespace CallAtlas

/-- How much an entry matters. -/
inductive LogLevel where
  | debug
  | info
  | warning
  | error
  deriving Repr, DecidableEq

namespace LogLevel

/-- The written form of a level. -/
def text : LogLevel → String
  | .debug => "DEBUG"
  | .info => "INFO"
  | .warning => "WARNING"
  | .error => "ERROR"

/-- Levels in increasing order. -/
def rank : LogLevel → Nat
  | .debug => 0
  | .info => 1
  | .warning => 2
  | .error => 3

end LogLevel

/-- One entry of the log. -/
structure LogEntry where
  level : LogLevel
  source : String
  message : String
  deriving Repr, DecidableEq

end CallAtlas
