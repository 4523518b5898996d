import CodeManifest.Calendar

namespace CodeManifest.Log

/-- How much a report matters. -/
inductive Level where
  | debug
  | info
  | warning
  | error
  deriving DecidableEq, Repr

namespace Level

def name : Level → Text
  | debug => "DEBUG"
  | info => "INFO"
  | warning => "WARNING"
  | error => "ERROR"

def rank : Level → Nat
  | debug => 10
  | info => 20
  | warning => 30
  | error => 40

/-- Does a report of the second level count where the first is the least that does? -/
def admits (least l : Level) : Bool := least.rank ≤ l.rank

end Level

/-- A report: the part of the program that it comes from, its level, and its text. -/
structure Record where
  source : Text
  level : Level
  text : Text
  deriving DecidableEq, Repr

namespace Record

/-- The name under which the part of the program is known. The program as a whole has no further
name. -/
def fullName (r : Record) : Text :=
  if r.source.isEmpty then "mcpgen" else "mcpgen.".toList ++ r.source

/-- The line of a report in a log file. Short names of levels are filled up to five letters. -/
def line (now : Instant) (r : Record) : Text :=
  let u := now.utc
  let level := r.level.name ++ List.replicate (5 - r.level.name.length) ' '
  u.date.render ++ ' ' :: u.renderTime ++ ' ' :: level ++ ' ' :: '[' :: r.fullName ++ ']' :: ' ' ::
    r.text ++ ['\n']

end Record

end CodeManifest.Log
