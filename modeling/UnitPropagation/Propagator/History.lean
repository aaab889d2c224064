import UnitPropagation.Propagator.Calls

namespace UnitPropagation

/-!
# Histories

A propagator is reached by making it for a formula and by assuming literals in
calls, whether these end well or not.  As propagators are values, several
histories may begin alike and then part; each of them is followed by itself.
-/

/-- The propagator can be reached from the formula by assuming the given literals,
in this order, in some number of calls. -/
inductive History (formula : Formula) : List Literal → Propagator → Prop where
  | made {propagator : Propagator} :
    (Propagator.ofFormula formula).result = .ok propagator → History formula [] propagator
  | assumed {assumptions : List Literal} {propagator : Propagator} (literals : List Literal) :
    History formula assumptions propagator →
      History formula (assumptions ++ literals) (propagator.assume literals).propagator

namespace Propagator

/-- A propagator that has met a conflict does not change any more. -/
theorem assume_of_inconsistent {propagator : Propagator}
    (inconsistent : propagator.inconsistent = true) (literals : List Literal) :
    propagator.assume literals =
      ⟨.error (.conflict .inconsistentState), propagator, #[]⟩ := by
  rw [assume, if_pos inconsistent]

end Propagator

end UnitPropagation
