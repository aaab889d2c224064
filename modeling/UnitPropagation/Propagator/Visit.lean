import UnitPropagation.Propagator.Round

namespace UnitPropagation

/-!
# Visits

A clause is visited when one of its two watched literals has become false.  The
visit finds out what is to be done about it, which depends on the other watched
literal, the *partner*, and on the first literal of the clause which could take
over the watch, and then does it.
-/

/-- What a visit finds.  Either some literal of the clause is true, or a replacement can take over
the watch.  Otherwise all literals but the partner are false, and the partner has to be true, unless
it is false as well. -/
inductive Finding where
  | satisfied
  | movable (partner replacement : Literal)
  | forcing (partner : Literal)
  | falsified (partner : Literal)
deriving DecidableEq

namespace Propagator

/-- The first literal of a clause, different from the partner, which is not false. -/
def replacement? (propagator : Propagator) (clause : Clause) (partner : Literal) :
    Option Literal :=
  clause.literals.find? fun literal => literal ≠ partner && !propagator.isFalse literal

/-- What there is to find about a clause with the given partner. -/
def judge (propagator : Propagator) (clause : Clause) (partner : Literal) : Finding :=
  if propagator.isTrue partner then .satisfied
  else
    match propagator.replacement? clause partner with
    | some replacement =>
      if propagator.isTrue replacement then .satisfied else .movable partner replacement
    | none => if propagator.isFalse partner then .falsified partner else .forcing partner

/-- Looks at a clause after its watched literal `falseLiteral` has become false. -/
def examine (propagator : Propagator) (falseLiteral : Literal) (id : ClauseId) :
    Except Fault Finding := do
  let standing ← propagator.watches.standing id
  let partner ← standing.partner id falseLiteral
  let clause ← propagator.formula.clause id
  return propagator.judge clause partner

end Propagator

namespace Round

def countVisit (round : Round) : Round :=
  round.update fun propagator =>
    { propagator with
      tally := { propagator.tally with watchVisits := propagator.tally.watchVisits + 1 } }

/-- Stops watching a clause, which is satisfied or will be as soon as its partner is a unit. -/
def retire (round : Round) (id : ClauseId) : Except Halt Round :=
  match round.propagator.watches.standing id with
  | .error fault => .error ⟨.fault fault, round⟩
  | .ok standing =>
    .ok (round.update fun propagator =>
      { propagator with
        watches := propagator.watches.retire id standing
        tally := { propagator.tally with retiredClauses := propagator.tally.retiredClauses + 1 } })

/-- Has a clause watched by two literals, which have to be different and the second of
which is new. -/
def rewatch (round : Round) (id : ClauseId) (partner replacement : Literal) :
    Except Halt Round :=
  if partner = replacement then .error ⟨.fault .doubleWatch, round⟩
  else
    match round.propagator.watches.standing id with
    | .error fault => .error ⟨.fault fault, round⟩
    | .ok _ =>
      .ok (round.update fun propagator =>
        { propagator with
          watches := propagator.watches.watch id partner replacement
          tally :=
            { propagator.tally with
              watchReplacements := propagator.tally.watchReplacements + 1 } })

def settle (round : Round) (id : ClauseId) : Finding → Except Halt Round
  | .satisfied => round.retire id
  | .movable partner replacement => round.rewatch id partner replacement
  | .forcing partner => do
    let retired ← (round.note (.forces id partner)).retire id
    retired.learn partner
  | .falsified partner => .error ⟨.conflict (.falsifiedClause id partner), round⟩

/-- Visits a clause which was watched by `falseLiteral`.  The visit is counted even if it is a
fault. -/
def visit (falseLiteral : Literal) (round : Round) (id : ClauseId) : Except Halt Round :=
  match round.propagator.examine falseLiteral id with
  | .error fault => .error ⟨.fault fault, round.countVisit⟩
  | .ok finding => round.countVisit.settle id finding

def visitAll (falseLiteral : Literal) : Round → List ClauseId → Except Halt Round
  | round, [] => .ok round
  | round, id :: ids => do visitAll falseLiteral (← round.visit falseLiteral id) ids

end Round

end UnitPropagation
