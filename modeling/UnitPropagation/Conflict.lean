import UnitPropagation.Clause

namespace UnitPropagation

/-!
# Conflicts

A conflict says why no assignment makes a formula and a number of units true.
-/

/-- The reason for which a formula, together with the assumed units, was found inconsistent.  A
clause has no literals, or a literal was assumed whose negation is a unit already, or all literals
of a clause are false, of which the given one was the last to be hoped for.  Once a call has ended
in a conflict, every later call is refused since the state is inconsistent. -/
inductive Conflict where
  | emptyClause (clause : ClauseId)
  | complementaryUnit (literal : Literal)
  | falsifiedClause (clause : ClauseId) (literal : Literal)
  | inconsistentState
deriving DecidableEq

def Conflict.message : Conflict → String
  | emptyClause clause => s!"clause {clause} is empty"
  | complementaryUnit literal =>
    s!"tried to add {literal.text} as a unit but its negation is already a unit"
  | falsifiedClause clause literal =>
    s!"clause {clause} can no longer be satisfied, its last remaining literal {literal.text} is false"
  | inconsistentState => "the propagator was already found to be inconsistent"

/-- Why an operation ended early: it found a conflict, or it was used outside its contract. -/
inductive Stop where
  | conflict (conflict : Conflict)
  | fault (fault : Fault)
deriving DecidableEq

end UnitPropagation
