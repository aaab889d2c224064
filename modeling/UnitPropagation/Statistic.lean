import UnitPropagation.Log

namespace UnitPropagation

/-!
# Statistics

A statistic is a value or a group of named statistics, possibly nested.  Its
report has one line for each value, whose name is made of the names on the way to
the value, joined by underscores.
-/

/-- A value, given by its text, or a group of named statistics. -/
inductive Statistic where
  | value (text : String)
  | group (members : List (String × Statistic))

namespace Statistic

/-- The name under which a statistic is reported.  It grows on the way from a group to its
members. -/
structure Scope where
  name : String
deriving DecidableEq, Repr

namespace Scope

def ofParts (parts : List String) : Scope :=
  ⟨"_".intercalate parts⟩

/-- The scope for a member of a group.  A scope without a name adds nothing to the
member's name. -/
def member (scope : Scope) (name : String) : Scope :=
  if scope.name.isEmpty then ⟨name⟩ else ⟨scope.name ++ "_" ++ name⟩

end Scope

structure Entry where
  name : String
  value : String
deriving DecidableEq, Repr

mutual

/-- The report of a statistic under a scope.  A group without members has an empty report. -/
def entries (scope : Scope) : Statistic → List Entry
  | .value text => [⟨scope.name, text⟩]
  | .group members => memberEntries scope members

def memberEntries (scope : Scope) : List (String × Statistic) → List Entry
  | [] => []
  | (name, statistic) :: members =>
    entries (scope.member name) statistic ++ memberEntries scope members

end

/-- How reports are set: what each line begins with, and what stands below all of them. -/
structure Style where
  lead : String
  closing : Option String
deriving DecidableEq, Repr

namespace Style

/-- The style of comments in the output format of solvers, without a closing line. -/
def comment : Style where
  lead := "c STAT"
  closing := none

def line (style : Style) (entry : Entry) : String :=
  style.lead ++ " " ++ entry.name ++ "=" ++ entry.value

end Style

/-- What came out of writing: the text which was written, and what was logged about lines
which could not be written. -/
structure Written where
  output : String
  log : List Log.Record
deriving DecidableEq, Repr

namespace Written

def failure : Log.Record where
  level := .debug
  message := "Could not write statistic: writer failed"

/-- Writes the lines one by one.  A writer which does not work loses each of them and
leaves a record for each; the lines behind it are tried all the same. -/
def ofLines (works : Bool) (lines : List String) : Written :=
  if works then ⟨String.join (lines.map (· ++ "\n")), []⟩
  else ⟨"", lines.map fun _ => failure⟩

end Written

def write (style : Style) (works : Bool) (scope : Scope) (statistic : Statistic) : Written :=
  .ofLines works ((statistic.entries scope).map style.line)

/-- Writes the line below all reports, if there is one. -/
def writeClosing (style : Style) (works : Bool) : Written :=
  .ofLines works style.closing.toList

end Statistic

end UnitPropagation
