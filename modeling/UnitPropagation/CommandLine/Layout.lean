import UnitPropagation.CommandLine.Options
import UnitPropagation.Log

namespace UnitPropagation
namespace CommandLine

/-!
# Layout of the output

A run prints log records as comments between the lines of the answer.  What is told and in
which order is said by entries.  They know nothing of the time that is printed with a record
or of the place in the program that made it: every entry is stamped with its own time and
place when the entries are laid out.
-/

/-- The time at which a record is made and the place in the program where it is made, as both
are printed with the record. -/
structure Stamp where
  time : String
  site : String
deriving DecidableEq, Repr

/-- One thing that is told: a record for the log, or a line which is printed as it is. -/
inductive Entry where
  | record (record : Log.Record)
  | line (text : String)
deriving DecidableEq, Repr

/-- The least important level which is logged. -/
def threshold (options : Options) : Log.Level :=
  if options.has .verbose then .debug else .warn

/-- A record as a comment.  The options can keep time and place out of it, and neither is ever
printed with a piece of information. -/
def recordLine (options : Options) (stamp : Stamp) (record : Log.Record) : String :=
  let isInfo := record.level = .info
  let time := if isInfo || options.has .omitTimestamp then "" else stamp.time ++ " "
  let site := if isInfo || options.has .omitCallSite then "" else "[" ++ stamp.site ++ "] "
  "c " ++ time ++ record.level.name ++ " " ++ site ++ record.message

/-- What is printed for an entry.  For a record which matters too little there is no line. -/
def Entry.lines (options : Options) (stamp : Stamp) : Entry → List String
  | .record told =>
    if told.level.within (threshold options) then [recordLine options stamp told] else []
  | .line text => [text]

/-- The lines for entries which are numbered from `first` on, where each entry has the stamp of
its number. -/
def layOut (options : Options) (stamps : Nat → Stamp) (first : Nat) (entries : List Entry) :
    List String :=
  (entries.zipIdx first).flatMap fun (entry, number) => entry.lines options (stamps number)

end CommandLine
end UnitPropagation
