import UnitPropagation.Literal

namespace UnitPropagation

/-!
# Assignments

An assignment gives every variable a truth value.  It is a model of clauses, here
given as lists of literals, if each of them has a literal which is true.  The order
and the repetition of literals have no influence on that.
-/

abbrev Assignment : Type :=
  Variable → Bool

namespace Assignment

def value (assignment : Assignment) (literal : Literal) : Bool :=
  assignment literal.var == literal.isPositive

/-- A literal and its negation have opposite values. -/
@[simp]
theorem value_neg (assignment : Assignment) (literal : Literal) :
    assignment.value (-literal) = !assignment.value literal := by
  have sign : (-literal).isPositive = !literal.isPositive := by
    have nonzero := literal.code_ne_zero
    rw [Bool.eq_iff_iff]
    simp only [Literal.isPositive, Literal.code_neg, decide_eq_true_eq, Bool.not_eq_true',
      decide_eq_false_iff_not]
    omega
  simp only [value, Literal.var_neg, sign]
  cases assignment literal.var <;> cases literal.isPositive <;> rfl

/-- Whether the assignment makes some literal of every clause true. -/
def IsModel (assignment : Assignment) (clauses : List (List Literal)) : Prop :=
  ∀ clause ∈ clauses, ∃ literal ∈ clause, assignment.value literal = true

end Assignment

end UnitPropagation
