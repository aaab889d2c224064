import UnitPropagation.Propagator.Event
import UnitPropagation.Propagator.State

namespace UnitPropagation

/-!
# Rounds

A round is the work of one call on a propagator while it is going on.  A halt is
a round which was cut short by a conflict; the propagator is left as it is at this
moment, with what was done so far neither completed nor undone.
-/

/-- A propagator at work, the literals which became units during the call, and the events so far. -/
structure Round where
  propagator : Propagator
  derived : Std.TreeSet Literal
  trace : Array Event

/-- A round that came to an early end, as it was at that moment. -/
structure Halt where
  stop : Stop
  round : Round

namespace Round

def start (propagator : Propagator) : Round where
  propagator := propagator
  derived := ∅
  trace := #[]

def note (round : Round) (event : Event) : Round :=
  { round with trace := round.trace.push event }

def update (round : Round) (change : Propagator → Propagator) : Round :=
  { round with propagator := change round.propagator }

/-- The round in which a literal has become a unit and waits in the queue. -/
def enqueue (round : Round) (literal : Literal) : Round where
  propagator :=
    { round.propagator with
      units := round.propagator.units.insert literal
      queue := round.propagator.queue ++ [literal]
      tally :=
        { round.propagator.tally with
          enqueuedUnits := round.propagator.tally.enqueuedUnits + 1 } }
  derived := round.derived.insert literal
  trace := round.trace

/-- Makes a literal a unit.  Nothing is to be done for a unit; the negation of a unit
ends the round. -/
def learn (round : Round) (literal : Literal) : Except Halt Round :=
  if round.propagator.isTrue literal then .ok round
  else if round.propagator.isFalse literal then
    .error ⟨.conflict (.complementaryUnit literal), round⟩
  else .ok (round.enqueue literal)

def learnAll : Round → List Literal → Except Halt Round
  | round, [] => .ok round
  | round, literal :: literals => do learnAll (← round.learn literal) literals

end Round

end UnitPropagation
