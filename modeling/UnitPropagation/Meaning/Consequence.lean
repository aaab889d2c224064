import UnitPropagation.Meaning.Assignment

namespace UnitPropagation

/-!
# Unit consequences

The unit consequences of some literals are obtained without any strategy: a
literal of a clause follows when the negations of all other literals of the clause
do.  They are the least set which contains the given literals and is closed under
this rule.  Clauses are read as sets here: a repeated literal is one literal.

A model of the clauses which makes the given literals true makes all their unit
consequences true.  The converse fails, as unit propagation does not distinguish cases.
-/

/-- What follows from the given literals by looking at one clause at a time. -/
inductive UnitConsequence (clauses : List (List Literal)) (given : Literal → Prop) :
    Literal → Prop where
  | given {literal : Literal} : given literal → UnitConsequence clauses given literal
  | forced {clause : List Literal} {literal : Literal} :
    clause ∈ clauses → literal ∈ clause →
      (∀ other ∈ clause, other ≠ literal → UnitConsequence clauses given (-other)) →
        UnitConsequence clauses given literal

/-- Whether a set of literals has a literal together with its negation. -/
def Contradictory (literals : Literal → Prop) : Prop :=
  ∃ literal, literals literal ∧ literals (-literal)

/-- Whether a set of literals has a literal together with its negation, both of which also stand
in one clause.  Such a clause is a tautology, but it can force another of its literals. -/
def ContradictoryWithin (clauses : List (List Literal)) (literals : Literal → Prop) : Prop :=
  ∃ clause ∈ clauses, ∃ literal ∈ clause, -literal ∈ clause ∧ literals literal ∧ literals (-literal)

namespace ContradictoryWithin

variable {clauses : List (List Literal)} {literals : Literal → Prop}

theorem contradictory (within : ContradictoryWithin clauses literals) : Contradictory literals := by
  rcases within with ⟨_, _, literal, _, _, isMem, negationIsMem⟩
  exact ⟨literal, isMem, negationIsMem⟩

theorem mono {more : Literal → Prop} (le : ∀ literal, literals literal → more literal)
    (within : ContradictoryWithin clauses literals) : ContradictoryWithin clauses more := by
  rcases within with ⟨clause, member, literal, literalMem, negationMem, isMem, negationIsMem⟩
  exact ⟨clause, member, literal, literalMem, negationMem, le _ isMem, le _ negationIsMem⟩

end ContradictoryWithin

namespace UnitConsequence

variable {clauses : List (List Literal)} {given : Literal → Prop}

/-- More given literals have more consequences, from the same clauses. -/
theorem mono {more : Literal → Prop} (given_le : ∀ literal, given literal → more literal)
    {literal : Literal} (follows : UnitConsequence clauses given literal) :
    UnitConsequence clauses more literal := by
  induction follows with
  | given isGiven => exact .given (given_le _ isGiven)
  | forced clauseMem literalMem _ ih => exact .forced clauseMem literalMem ih

/-- Consequences have no consequences which the given literals do not have. -/
theorem of_unitConsequence {literal : Literal}
    (follows : UnitConsequence clauses (UnitConsequence clauses given) literal) :
    UnitConsequence clauses given literal := by
  induction follows with
  | given isGiven => exact isGiven
  | forced clauseMem literalMem _ ih => exact .forced clauseMem literalMem ih

/-- Unit propagation is sound: it preserves every model. -/
theorem value_of_isModel {assignment : Assignment} (model : assignment.IsModel clauses)
    (given_true : ∀ literal, given literal → assignment.value literal = true)
    {literal : Literal} (follows : UnitConsequence clauses given literal) :
    assignment.value literal = true := by
  induction follows with
  | given isGiven => exact given_true _ isGiven
  | @forced clause literal clauseMem literalMem _ ih =>
    obtain ⟨satisfied, satisfiedMem, isTrue⟩ := model clause clauseMem
    by_cases same : satisfied = literal
    · exact same ▸ isTrue
    · have isFalse := ih satisfied satisfiedMem same
      rw [Assignment.value_neg, isTrue] at isFalse
      cases isFalse

/-- Hence clauses have no model which makes literals with contradictory consequences true. -/
theorem not_isModel_of_contradictory
    (contradiction : Contradictory (UnitConsequence clauses given)) {assignment : Assignment}
    (given_true : ∀ literal, given literal → assignment.value literal = true) :
    ¬assignment.IsModel clauses := by
  intro model
  obtain ⟨literal, follows, negationFollows⟩ := contradiction
  have isTrue := value_of_isModel model given_true follows
  have isFalse := value_of_isModel model given_true negationFollows
  rw [Assignment.value_neg, isTrue] at isFalse
  cases isFalse

end UnitConsequence

end UnitPropagation
