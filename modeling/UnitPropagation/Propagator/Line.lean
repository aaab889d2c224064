import UnitPropagation.Propagator.Session

namespace UnitPropagation

/-!
# Lines of descent

What has become of a propagator in a session depends only on its line of descent,
that is on the batches of literals which were assumed on itself and, before it was
cloned, on its origin.  A restarted propagator begins a new line.  The lines of a
session can be read off its calls, whatever the propagators answer.
-/

def Answer.stop? (answer : Answer) : Option Stop :=
  match answer.result with
  | .ok _ => none
  | .error stop => some stop

/-- Why the first call failed that did not end well, where batches of literals are
assumed one after the other. -/
def Propagator.failure? (propagator : Propagator) : List (List Literal) → Option Stop
  | [] => none
  | literals :: line =>
    let answer := propagator.assume literals
    answer.stop?.or (answer.propagator.failure? line)

namespace Session

/-- The lines after one more call.  A call on a propagator that does not exist does nothing. -/
def extendLines (lines : List (List (List Literal))) : Call → List (List (List Literal))
  | .assume slot literals =>
    match lines[slot]? with
    | some line => lines.set slot (line ++ [literals])
    | none => lines
  | .assumeOne slot literal =>
    match lines[slot]? with
    | some line => lines.set slot (line ++ [[literal]])
    | none => lines
  | .clone slot =>
    match lines[slot]? with
    | some line => lines ++ [line]
    | none => lines
  | .restart slot =>
    match lines[slot]? with
    | some _ => lines ++ [[]]
    | none => lines

/-- The line of every propagator in a session with the given calls: the batches which
were assumed on it, the earliest first. -/
def lines (calls : List Call) : List (List (List Literal)) :=
  calls.foldl extendLines [[]]

end Session
end UnitPropagation
