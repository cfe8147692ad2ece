/-
Log records. A record has a level, the name of the logger that made it
and a message; a reader that asks for a level sees the records of that
level and of the graver ones.
-/
namespace TexMath.Log

/-- How grave a record is. -/
inductive Level where
  | debug
  | info
  | warning
  | error
  | critical
deriving DecidableEq, Repr

namespace Level

/-- Every level, the least grave one first. -/
def all : List Level := [debug, info, warning, error, critical]

/-- The name of a level in capitals. -/
def name : Level → String
  | debug => "DEBUG"
  | info => "INFO"
  | warning => "WARNING"
  | error => "ERROR"
  | critical => "CRITICAL"

/-- The level with a given name. -/
def ofName? (name : String) : Option Level :=
  all.find? (·.name = name)

/-- The place of a level among the levels. -/
def gravity : Level → Nat
  | debug => 0
  | info => 1
  | warning => 2
  | error => 3
  | critical => 4

end Level

/-- One entry of a log. -/
structure Record where
  level : Level
  logger : String
  message : String
deriving DecidableEq, Repr

namespace Record

/-- A record is seen from every threshold that is not graver than it. -/
def seenFrom (threshold : Level) (r : Record) : Bool :=
  threshold.gravity ≤ r.level.gravity

/-- The record as one line, without the newline. -/
def text (r : Record) : String :=
  s!"{r.level.name}:{r.logger}:{r.message}"

end Record

end TexMath.Log
