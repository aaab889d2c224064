import UnitPropagation.Propagator.Drain

namespace UnitPropagation

/-!
# Calls on a propagator

A propagator is made from clauses, and units are assumed on it in any number of
calls.  Each call answers with the propagator behind it and with the trace of what
happened.  After a conflict the propagator stays as the conflict left it, marked
as inconsistent, and every later call is refused.
-/

/-- The answer to assumed units: the literals which became units or the reason why the
call ended early, the propagator after the call, and the trace of the call. -/
structure Answer where
  result : Except Stop (Std.TreeSet Literal)
  propagator : Propagator
  trace : Array Event

/-- The answer to making a propagator: the propagator or the reason why there is none, and the
trace. -/
structure Creation where
  result : Except Stop Propagator
  trace : Array Event

namespace Propagator

/-- The propagator after a conflict.  It counts the conflict, and its queue is left as it is. -/
def contradicted (propagator : Propagator) : Propagator :=
  { propagator with
    inconsistent := true
    tally := { propagator.tally with inconsistencies := propagator.tally.inconsistencies + 1 } }

/-- Makes literals units and looks for their consequences.  A conflict is the last event of the
trace. -/
def derive (propagator : Propagator) (literals : List Literal) : Answer :=
  match (Round.start propagator).learnAll literals >>= Round.drain with
  | .ok round => ⟨.ok round.derived, round.propagator, round.trace⟩
  | .error ⟨.conflict conflict, round⟩ =>
    ⟨.error (.conflict conflict), round.propagator.contradicted,
      round.trace.push (.contradicted conflict)⟩
  | .error ⟨.fault fault, round⟩ => ⟨.error (.fault fault), round.propagator, round.trace⟩

/-- Assumes literals as units.  The result holds every literal which was no unit before:
assumed ones and those which they force. -/
def assume (propagator : Propagator) (literals : List Literal) : Answer :=
  if propagator.inconsistent then ⟨.error (.conflict .inconsistentState), propagator, #[]⟩
  else if !propagator.queue.isEmpty then ⟨.error (.fault .waitingUnits), propagator, #[]⟩
  else
    let answer := propagator.derive literals
    match answer.result with
    | .ok derived => { answer with trace := answer.trace.push (.derived derived.size) }
    | .error _ => answer

def assumeOne (propagator : Propagator) (literal : Literal) : Answer :=
  propagator.assume [literal]

/-- The propagator for a formula, which knows the consequences of the unit clauses. -/
def ofFormula (formula : Formula) : Creation :=
  let answer := (fresh formula).derive formula.unitLiterals
  match answer.result with
  | .ok initial =>
    ⟨.ok answer.propagator, answer.trace.push (.created formula.size initial.size)⟩
  | .error stop => ⟨.error stop, answer.trace⟩

/-- The propagator for the clauses with the given literals.  There is none if they make no
formula. -/
def ofLists (strict : Bool) (clauses : List (List Literal)) : Creation :=
  match Formula.ofLists strict clauses with
  | .ok formula => ofFormula formula
  | .error (.conflict conflict) => ⟨.error (.conflict conflict), #[.refuted conflict]⟩
  | .error (.fault fault) => ⟨.error (.fault fault), #[]⟩

end Propagator

end UnitPropagation
