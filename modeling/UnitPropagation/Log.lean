namespace UnitPropagation

/-!
# Log records

What happens during a run is reported in records, each of which has a level.  A
record says nothing about whether and how it is written; the command line has a
layout for its log, and other callers may have another one.
-/

namespace Log

/-- How much a record matters, from errors down to single steps. -/
inductive Level where
  | error
  | warn
  | info
  | debug
  | trace
deriving DecidableEq, Repr

namespace Level

def name : Level → String
  | error => "ERROR"
  | warn => "WARN"
  | info => "INFO"
  | debug => "DEBUG"
  | trace => "TRACE"

/-- The place of a level, counted from the one that matters most. -/
def rank : Level → Nat
  | error => 0
  | warn => 1
  | info => 2
  | debug => 3
  | trace => 4

/-- Whether a record of this level is logged when everything down to `threshold` is. -/
def within (level threshold : Level) : Bool :=
  level.rank ≤ threshold.rank

end Level

structure Record where
  level : Level
  message : String
deriving DecidableEq, Repr

/-- A record is written in short as its level and its message. -/
def Record.text (record : Record) : String :=
  s!"{record.level.name} {record.message}"

end Log

end UnitPropagation
