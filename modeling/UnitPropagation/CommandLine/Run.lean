import UnitPropagation.CommandLine.Layout
import UnitPropagation.CommandLine.Path
import UnitPropagation.Dimacs.Instance
import UnitPropagation.Propagator.Calls

namespace UnitPropagation
namespace CommandLine

/-!
# Runs of the program

A run reads an instance, propagates its unit clauses, assumes the given literals,
and prints the units or the reason why there is no assignment.  Here a run is a
function from what was read to what is printed.
-/

/-- What a run prints, line by line, and the status with which it exits. -/
structure Report where
  exit : Nat
  lines : List String
deriving DecidableEq, Repr

def Report.output (report : Report) : String :=
  String.join (report.lines.map (· ++ "\n"))

/-- Why a run fails.  The name of the instance has the wrong extension, or the instance cannot be
opened or is not accepted, or an assumption is not the code of a literal over its variables. -/
inductive Failure where
  | unsupported (path : String)
  | unopened (reason : String)
  | invalid (failure : Dimacs.Failure)
  | invalidAssumption (code : Int)
deriving DecidableEq

def Failure.message : Failure → String
  | unsupported path => s!"The file {path} is not supported."
  | unopened reason => s!"IO error, more details: {reason}"
  | invalid failure => s!"The dimacs file was invalid, more details: {failure.message}"
  | invalidAssumption code => s!"The assumption {code} is not a literal of the instance."

/-- The last words of a failed run, which go to the log whenever there is one. -/
def Failure.text (failure : Failure) : String :=
  s!"Execution failed, error: {failure.message}"

/-- Only instances with the extension of the format are supported. -/
def Options.isSupported (options : Options) : Bool :=
  extension? options.path = some "cnf"

def configured : Log.Record where
  level := .info
  message := "Logging successfully configured"

/-- The record about the checks that strict formulas undergo, which take their time. -/
def checksWarning : Log.Record where
  level := .warn
  message := "Potential performance degradation: the assert level is set to 3, meaning many " ++
    "debug asserts are active which may result in performance degradation."

def sizeRecord (problem : Dimacs.Instance) : Log.Record where
  level := .info
  message := s!"Read {problem.clauses.length} clauses over {problem.variableCount} variables"

def consistentLines (units : Std.TreeSet Literal) : List String :=
  ["s CONSISTENT", "v " ++ " ".intercalate (units.toList.map Literal.text ++ ["0"])]

def inconsistentLines (conflict : Conflict) : List String :=
  ["s INCONSISTENT", "c " ++ conflict.message]

def tallyLines (options : Options) (tally : Tally) : List String :=
  if options.has .logStatistics then
    (tally.statistic.entries (.ofParts ["propagation"])).map Statistic.Style.comment.line
  else []

/-- The lines about an early end; a fault has nothing to print. -/
def stopLines : Stop → List String
  | .conflict conflict => inconsistentLines conflict
  | .fault _ => []

/-- The status of a run which ended in the given way: only a fault is no answer. -/
def stopStatus : Stop → Nat
  | .conflict _ => 0
  | .fault _ => 101

/-- What is told from some point of a run on, in the order in which it is printed, and the status
with which the run exits. -/
structure Course where
  exit : Nat
  entries : List Entry
deriving DecidableEq, Repr

/-- The report of a run in which the entries have the stamps of their numbers. -/
def Course.report (course : Course) (options : Options) (stamps : Nat → Stamp) : Report where
  exit := course.exit
  lines := layOut options stamps 0 course.entries

/-- The course in which other entries are told first and the rest stays as it is. -/
def Course.behind (course : Course) (entries : List Entry) : Course :=
  { course with entries := entries ++ course.entries }

def traceEntries (trace : Array Event) : List Entry :=
  trace.toList.map fun event => .record event.record

def skipEntries (clauses : List (List Literal)) : List Entry :=
  (Dimacs.skipRecords clauses).map .record

def openingEntries (strict : Bool) : List Entry :=
  (configured :: if strict then [checksWarning] else []).map .record

/-- A run that fails says so in a record, and prints nothing else from then on. -/
def failed (failure : Failure) : Course where
  exit := 1
  entries := [.record { level := .error, message := failure.text }]

/-- Assumes literals and tells what came of it, then the tally.  The trace of the call comes
first. -/
def answer (options : Options) (propagator : Propagator) (assumptions : List Literal) : Course :=
  let answer := propagator.assume assumptions
  let trace := traceEntries answer.trace
  let tally := (tallyLines options answer.propagator.tally).map .line
  match answer.result with
  | .ok _ =>
    { exit := 0
      entries := trace ++ (consistentLines answer.propagator.units).map .line ++ tally }
  | .error stop =>
    { exit := stopStatus stop, entries := trace ++ (stopLines stop).map .line ++ tally }

/-- Makes the propagator of an instance and goes on with the assumptions.  The tally of a
propagator which could not be made is not known, so that only the conflict is counted. -/
def solve (options : Options) (strict : Bool) (problem : Dimacs.Instance)
    (assumptions : List Literal) : Course :=
  let creation := Propagator.ofLists strict problem.clauses
  let trace := traceEntries creation.trace
  match creation.result with
  | .ok propagator => (answer options propagator assumptions).behind trace
  | .error stop =>
    let tally := (tallyLines options { Tally.zero with inconsistencies := 1 }).map .line
    { exit := stopStatus stop, entries := trace ++ (stopLines stop).map .line ++ tally }

/-- The literals with the given codes, or the first code which is none. -/
def readAssumptions (variableCount : Nat) (codes : List Int) : Except Failure (List Literal) :=
  codes.mapM fun code =>
    match Dimacs.assumption? variableCount code with
    | some literal => .ok literal
    | none => .error (.invalidAssumption code)

/-- Goes on with an instance that was opened.  Clauses that are left out are told of while the
instance is read, so also if it is rejected in the end. -/
def process (options : Options) (strict : Bool) (source : Dimacs.Source) : Course :=
  let outcome := source.outcome
  let course :=
    match outcome.result with
    | .error failure => failed (.invalid failure)
    | .ok content =>
      match readAssumptions content.variableCount options.assumptions with
      | .error failure => failed failure
      | .ok assumptions =>
        let problem := Dimacs.Instance.ofContent content
        (solve options strict problem assumptions).behind [.record (sizeRecord problem)]
  course.behind (skipEntries outcome.clauses)

/-- The course of a run on an instance, given by the source for reading it or by the reason why
it could not be opened.  An instance of the wrong kind is not even opened. -/
def course (options : Options) (strict : Bool) (opened : Except String Dimacs.Source) : Course :=
  if !options.isSupported then
    { exit := 1, entries := [.line (Failure.unsupported options.path).text] }
  else
    let course :=
      match opened with
      | .error reason => failed (.unopened reason)
      | .ok source => process options strict source
    course.behind (openingEntries strict)

def run (options : Options) (stamps : Nat → Stamp) (strict : Bool)
    (opened : Except String Dimacs.Source) : Report :=
  (course options strict opened).report options stamps

def usageStatus : Nat :=
  2

/-- The report of a run with the given arguments, where `access` opens paths.  Arguments that are
not used as they should be have a status of their own. -/
def report (strict : Bool) (stamps : Nat → Stamp) (access : String → Except String Dimacs.Source)
    (arguments : List String) : Report :=
  match Options.ofArguments? arguments with
  | none => { exit := usageStatus, lines := [] }
  | some options => run options stamps strict (access options.path)

end CommandLine
end UnitPropagation
