import UnitPropagation.Conflict
import UnitPropagation.Log

namespace UnitPropagation

/-!
# Events of propagation

Every call on a propagator leaves a trace of events, in the order in which they
happened.
-/

/-- An event of propagation.  The consequences of a unit are looked for, or a clause forces its last
literal which is not false.  A call has ended well and has made so many new units, a propagator was
made from so many clauses with so many units to begin with, or a call has ended in a conflict.  The
clauses are refuted if one of them is empty, as there is no formula then. -/
inductive Event where
  | propagating (unit : Literal)
  | forces (clause : ClauseId) (literal : Literal)
  | derived (count : Nat)
  | created (clauses units : Nat)
  | contradicted (conflict : Conflict)
  | refuted (conflict : Conflict)
deriving DecidableEq

namespace Event

/-- How much an event matters.  Conflicts and new propagators matter more than single steps and
calls that end well. -/
def level : Event → Log.Level
  | propagating _ | forces _ _ | derived _ => .trace
  | created _ _ | contradicted _ | refuted _ => .debug

def message : Event → String
  | propagating unit => s!"Propagating {unit.text}"
  | forces clause literal => s!"Clause {clause} forces {literal.text}"
  | derived count => s!"Derived {count} new units"
  | created clauses units =>
    s!"Created unit propagator for {clauses} clauses with {units} initial units"
  | contradicted conflict => s!"Propagation found an inconsistency: {conflict.message}"
  | refuted conflict => s!"Formula is inconsistent: {conflict.message}"

def record (event : Event) : Log.Record where
  level := event.level
  message := event.message

end Event

end UnitPropagation
