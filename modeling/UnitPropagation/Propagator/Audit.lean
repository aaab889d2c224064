import UnitPropagation.Propagator.State

namespace UnitPropagation

/-!
# Audits

An audit compares what a propagator keeps twice and looks at every clause for the
conditions under which nothing is left to propagate.  It is meant for propagators
which no conflict has interrupted, but may be done on any.
-/

/-- What an audit complains about.  The units have both polarities of a variable, or there are more
or fewer standings than clauses.  Of the lists one may be empty, name a clause that does not exist,
or name one which the literal does not watch.  A watched clause may be watched by one literal twice
or by a literal which it does not have, or not be listed under a literal that watches it.  The last
two are about clauses when nothing is left to propagate: one is watched by a false literal, or is
not watched and has no true literal. -/
inductive Defect where
  | bothPolarities
  | standingCount (standings clauses : Nat)
  | emptyList (literal : Literal)
  | unknownClause (standings : Nat) (clause : ClauseId)
  | strayListing (clause : ClauseId) (literal : Literal)
  | doubleWatch (clause : ClauseId) (literal : Literal)
  | foreignWatch (clause : ClauseId)
  | missingListing (clause : ClauseId)
  | falseWatch (clause : ClauseId)
  | unsatisfied (clause : ClauseId)
deriving DecidableEq

namespace Defect

def message : Defect → String
  | bothPolarities => "A variable is assigned both polarities."
  | standingCount standings clauses =>
    s!"assertion `left == right` failed: Every clause should have a watch status.\n" ++
      s!"  left: {standings}\n right: {clauses}"
  | emptyList literal => s!"Empty watch list of {literal.text} is kept."
  | unknownClause standings clause => (Fault.outOfRange standings clause).message
  | strayListing clause literal =>
    s!"Clause {clause} is in the watch list of {literal.text} but does not watch it."
  | doubleWatch clause literal =>
    s!"assertion `left != right` failed: Clause {clause} watches {literal.text} twice.\n" ++
      "  left: Literal \x7b code: " ++ literal.text ++ " \x7d\n" ++
      " right: Literal \x7b code: " ++ literal.text ++ " \x7d"
  | foreignWatch clause => s!"Clause {clause} watches a literal which is not part of it."
  | missingListing clause =>
    s!"Clause {clause} is missing from the watch list of a watched literal."
  | falseWatch clause =>
    s!"Clause {clause} watches a false literal after propagation completed."
  | unsatisfied clause => s!"Clause {clause} is not watched but also not satisfied."

def demand (condition : Bool) (defect : Defect) : Except Defect Unit :=
  if condition then .ok () else .error defect

@[simp]
theorem demand_eq_ok {condition : Bool} {defect : Defect} :
    demand condition defect = .ok () ↔ condition = true := by
  cases condition <;> simp [demand]

end Defect

namespace Watches

/-- The standing of a clause, or the complaint that it has none. -/
def auditedStanding (watches : Watches) (id : ClauseId) : Except Defect Standing :=
  match watches.standings.rows[id]? with
  | some standing => .ok standing
  | none => .error (.unknownClause watches.standings.size id)

/-- Checks that every clause listed under a literal is watched by it, and that no list is empty. -/
def auditListings (watches : Watches) : Except Defect Unit :=
  watches.watchers.toList.forM fun (literal, ids) => do
    Defect.demand (!ids.isEmpty) (.emptyList literal)
    ids.toList.forM fun id => do
      let standing ← watches.auditedStanding id
      Defect.demand (standing.isWatchedBy literal) (.strayListing id literal)

/-- Checks that every watched clause is watched by two literals of its own and is
listed under both. -/
def auditStandings (watches : Watches) (formula : Formula) : Except Defect Unit :=
  formula.entries.forM fun (id, clause) => do
    match ← watches.auditedStanding id with
    | .watched first second =>
      Defect.demand (first != second) (.doubleWatch id first)
      Defect.demand (clause.contains first && clause.contains second) (.foreignWatch id)
      Defect.demand (watches.isListed first id && watches.isListed second id) (.missingListing id)
    | .unit | .retired => return ()

/-- Checks that the index describes watches of the clauses of a formula. -/
def audit (watches : Watches) (formula : Formula) : Except Defect Unit := do
  Defect.demand (watches.standings.size == formula.size)
    (.standingCount watches.standings.size formula.size)
  watches.auditListings
  watches.auditStandings formula

end Watches

namespace Propagator

/-- Checks that each clause is watched by literals which are not false, or has a true literal. -/
def auditClauses (propagator : Propagator) : Except Defect Unit :=
  propagator.formula.entries.forM fun (id, clause) => do
    match ← propagator.watches.auditedStanding id with
    | .watched first second =>
      Defect.demand (!propagator.isFalse first && !propagator.isFalse second) (.falseWatch id)
    | .unit | .retired =>
      Defect.demand (clause.literals.any propagator.isTrue) (.unsatisfied id)

/-- Checks a propagator.  The clauses are not judged while units wait. -/
def audit (propagator : Propagator) : Except Defect Unit := do
  Defect.demand (propagator.units.toList.all fun literal => !propagator.isFalse literal)
    .bothPolarities
  propagator.watches.audit propagator.formula
  if propagator.queue.isEmpty then propagator.auditClauses else return ()

end Propagator

end UnitPropagation
