import UnitPropagation.Propagator.Tally
import UnitPropagation.Watches

namespace UnitPropagation

/-!
# Propagators

A propagator holds the literals which a formula and some assumed literals are
known to force, its *units*.  Units are never taken back.  A caller who wants to
try something out keeps the propagator it began with, which is a value like any other.
-/

/-- A formula with the units known so far.  The queue has those units whose consequences have not
been looked for, the oldest first.  A propagator is inconsistent once a call has ended in a
conflict. -/
structure Propagator where
  formula : Formula
  watches : Watches
  units : Std.TreeSet Literal
  queue : List Literal
  tally : Tally
  inconsistent : Bool

namespace Propagator

/-- The propagator which knows no units yet, not even those of the unit clauses. -/
def fresh (formula : Formula) : Propagator where
  formula := formula
  watches := .ofFormula formula
  units := ∅
  queue := []
  tally := .zero
  inconsistent := false

def isTrue (propagator : Propagator) (literal : Literal) : Bool :=
  propagator.units.contains literal

def isFalse (propagator : Propagator) (literal : Literal) : Bool :=
  propagator.units.contains (-literal)

def isAssigned (propagator : Propagator) (literal : Literal) : Bool :=
  propagator.isTrue literal || propagator.isFalse literal

theorem isTrue_iff {propagator : Propagator} {literal : Literal} :
    propagator.isTrue literal = true ↔ literal ∈ propagator.units := by
  simp [isTrue]

theorem isFalse_iff {propagator : Propagator} {literal : Literal} :
    propagator.isFalse literal = true ↔ -literal ∈ propagator.units := by
  simp [isFalse]

end Propagator

end UnitPropagation
