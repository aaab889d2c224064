import UnitPropagation.Proofs.Propagation.Reached

namespace UnitPropagation

/-!
# The units are the unit consequences

The units of a settled propagator follow from what was given.  Here the converse is
shown: they are closed under the rule of unit consequences, so that nothing that
follows is missing.  A clause which is retired, or which is a single literal, has a
true literal and cannot force another one.  A clause which is watched has two
different literals that are not false, of which at most one can be forced.  In both
cases the clause is *at rest*.

The argument needs two different watches.  It is therefore about formulas whose
clauses do not open with the same literal twice, and in particular about those whose
clauses repeat no literal.
-/

namespace Propagator

/-- Whether a clause has a true literal or two different literals that are not false, so that
there is nothing to propagate from it. -/
def AtRest (propagator : Propagator) (clause : Clause) : Prop :=
  propagator.Satisfies clause ∨
    ∃ first ∈ clause.literals, ∃ second ∈ clause.literals,
      first ≠ second ∧ -first ∉ propagator.units ∧ -second ∉ propagator.units

theorem AtRest.exists_not_false {propagator : Propagator} {clause : Clause}
    (atRest : propagator.AtRest clause)
    (consistent : ∀ literal ∈ propagator.units, -literal ∉ propagator.units) :
    ∃ literal ∈ clause.literals, -literal ∉ propagator.units := by
  rcases atRest with ⟨literal, member, isUnit⟩ | ⟨first, firstMem, _, _, _, firstFree, _⟩
  · exact ⟨literal, member, consistent literal isUnit⟩
  · exact ⟨first, firstMem, firstFree⟩

/-- If all its literals but one are false, then this one is true. -/
theorem AtRest.mem_units_of_forced {propagator : Propagator} {clause : Clause}
    (atRest : propagator.AtRest clause)
    (consistent : ∀ literal ∈ propagator.units, -literal ∉ propagator.units) {literal : Literal}
    (othersFalse : ∀ other ∈ clause.literals, other ≠ literal → -other ∈ propagator.units) :
    literal ∈ propagator.units := by
  rcases atRest with ⟨satisfied, member, isUnit⟩ |
    ⟨first, firstMem, second, secondMem, different, firstFree, secondFree⟩
  · by_cases same : satisfied = literal
    · exact same ▸ isUnit
    · exact absurd (othersFalse satisfied member same) (consistent satisfied isUnit)
  · -- One of the two is not the forced literal, and so it would have to be false.
    by_cases same : first = literal
    · exact absurd (othersFalse second secondMem (same ▸ Ne.symm different)) secondFree
    · exact absurd (othersFalse first firstMem same) firstFree

end Propagator

namespace Propagator.Settled

variable {propagator : Propagator} {formula : Formula} {given : Literal → Prop}
  {id : ClauseId} {clause : Clause}

theorem exists_standing (settled : propagator.Settled formula given)
    (read : formula.clause id = .ok clause) :
    ∃ standing, propagator.watches.standing id = .ok standing :=
  (settled.guarded default).coherent.exists_standing (settled.formula_eq ▸ read)

theorem satisfies_of_unit (settled : propagator.Settled formula given)
    (units_given : ∀ literal ∈ formula.unitLiterals, given literal)
    (read : formula.clause id = .ok clause)
    (found : propagator.watches.standing id = .ok .unit) : propagator.Satisfies clause := by
  have readHere : propagator.formula.clause id = .ok clause := settled.formula_eq ▸ read
  have isUnit := ((settled.guarded default).coherent.unit_iff readHere).mp found
  refine ⟨clause.first, List.mem_cons_self, settled.given_units _ (units_given _ ?_)⟩
  exact Formula.mem_unitLiterals_iff.mpr ⟨id, clause, read, isUnit, rfl⟩

/-- Every clause of a settled propagator has a true literal or is watched. -/
theorem satisfies_or_watched (settled : propagator.Settled formula given)
    (units_given : ∀ literal ∈ formula.unitLiterals, given literal)
    (read : formula.clause id = .ok clause) :
    propagator.Satisfies clause ∨
      ∃ first second, propagator.watches.standing id = .ok (.watched first second) := by
  have guarded := settled.guarded default
  have readHere : propagator.formula.clause id = .ok clause := settled.formula_eq ▸ read
  rcases settled.exists_standing read with ⟨standing, found⟩
  cases standing with
  | watched first second => exact Or.inr ⟨first, second, found⟩
  | retired => exact Or.inl (guarded.retired_satisfied found readHere)
  | unit => exact Or.inl (settled.satisfies_of_unit units_given read found)

theorem watch_mem (settled : propagator.Settled formula given)
    (read : formula.clause id = .ok clause) {first second : Literal}
    (found : propagator.watches.standing id = .ok (.watched first second)) :
    first ∈ clause.literals ∧ second ∈ clause.literals := by
  have coherent := (settled.guarded default).coherent
  rw [settled.formula_eq] at coherent
  exact coherent.watched_mem read found

/-- Every clause of a settled propagator which does not open with a repetition is at rest. -/
theorem atRest (settled : propagator.Settled formula given)
    (units_given : ∀ literal ∈ formula.unitLiterals, given literal)
    (read : formula.clause id = .ok clause) (apart : ¬clause.OpensTwice) :
    propagator.AtRest clause := by
  rcases settled.satisfies_or_watched units_given read with satisfied | ⟨first, second, found⟩
  · exact Or.inl satisfied
  · have readHere : propagator.formula.clause id = .ok clause := settled.formula_eq ▸ read
    have members := settled.watch_mem read found
    exact Or.inr ⟨first, members.1, second, members.2,
      (settled.guarded default).not_false_both settled.queue_eq found readHere apart⟩

/-- The units are closed under forcing by such a clause. -/
theorem mem_units_of_forced (settled : propagator.Settled formula given)
    (units_given : ∀ literal ∈ formula.unitLiterals, given literal)
    (read : formula.clause id = .ok clause) (apart : ¬clause.OpensTwice) {literal : Literal}
    (othersFalse : ∀ other ∈ clause.literals, other ≠ literal → -other ∈ propagator.units) :
    literal ∈ propagator.units :=
  (settled.atRest units_given read apart).mem_units_of_forced
    (settled.guarded default).units_consistent othersFalse

/-- The units of a settled propagator are exactly the unit consequences. -/
theorem mem_units_iff (settled : propagator.Settled formula given)
    (units_given : ∀ literal ∈ formula.unitLiterals, given literal)
    (apart : ∀ clause ∈ formula.toList, ¬clause.OpensTwice) {literal : Literal} :
    literal ∈ propagator.units ↔ UnitConsequence formula.lists given literal := by
  constructor
  · exact settled.units_follow literal
  · intro follows
    induction follows with
    | given isGiven => exact settled.given_units _ isGiven
    | forced listed _ _ ih =>
        rcases Formula.mem_lists_iff.mp listed with ⟨id, clause, read, rfl⟩
        exact settled.mem_units_of_forced units_given read
          (apart clause (Formula.mem_toList read)) ih

theorem not_contradictory (settled : propagator.Settled formula given)
    (units_given : ∀ literal ∈ formula.unitLiterals, given literal)
    (apart : ∀ clause ∈ formula.toList, ¬clause.OpensTwice) :
    ¬Contradictory (UnitConsequence formula.lists given) := by
  rintro ⟨literal, follows, negationFollows⟩
  exact (settled.guarded default).units_consistent literal
    ((settled.mem_units_iff units_given apart).mpr follows)
    ((settled.mem_units_iff units_given apart).mpr negationFollows)

end Propagator.Settled

theorem Formula.units_given (formula : Formula) (assumptions : List Literal) :
    ∀ literal ∈ formula.unitLiterals, formula.Given assumptions literal :=
  fun _ isUnit => Or.inl isUnit

theorem Formula.contradictory_given_iff {formula : Formula} {assumptions : List Literal} :
    Contradictory (UnitConsequence formula.lists (formula.Given assumptions)) ↔
      Contradictory (UnitConsequence formula.lists (· ∈ assumptions)) := by
  simp only [Contradictory, unitConsequence_given_iff]

/-- A branch of a session went well exactly if its assumptions have no contradictory
unit consequences, and then its units are these consequences. -/
theorem Branch.Reached.units_iff {branch : Branch} {formula : Formula}
    (reached : branch.Reached formula) (apart : ∀ clause ∈ formula.toList, ¬clause.OpensTwice) :
    (branch.wentWell = true ↔
      ¬Contradictory (UnitConsequence formula.lists (· ∈ branch.assumptions))) ∧
    (branch.wentWell = true → ∀ literal, literal ∈ branch.propagator.units ↔
      UnitConsequence formula.lists (· ∈ branch.assumptions) literal) := by
  rw [← Formula.contradictory_given_iff]
  cases well : branch.wentWell with
  | true =>
      have settled := reached.settled well
      have units_given := formula.units_given branch.assumptions
      refine ⟨⟨fun _ => settled.not_contradictory units_given apart, fun _ => rfl⟩, ?_⟩
      intro _ literal
      rw [settled.mem_units_iff units_given apart, Formula.unitConsequence_given_iff]
  | false =>
      have broken := reached.broken well
      refine ⟨⟨fun impossible => Bool.noConfusion impossible, ?_⟩, fun impossible => Bool.noConfusion impossible⟩
      intro consistent
      exact absurd broken.contradictory consistent

/-- A propagator can be made exactly if the clauses alone have no contradictory unit
consequences. -/
theorem Propagator.exists_ofFormula_iff {formula : Formula}
    (apart : ∀ clause ∈ formula.toList, ¬clause.OpensTwice) :
    (∃ propagator, (ofFormula formula).result = .ok propagator) ↔
      ¬Contradictory (UnitConsequence formula.lists fun _ => False) := by
  have none_given : (fun _ => False) = fun literal : Literal => literal ∈ ([] : List Literal) := by
    funext literal
    simp
  rw [none_given, ← Formula.contradictory_given_iff]
  rcases ofFormula_cases formula with ⟨propagator, made, settled⟩ | ⟨conflict, failed, contradiction⟩
  · exact ⟨fun _ => settled.not_contradictory (formula.units_given []) apart,
      fun _ => ⟨propagator, made⟩⟩
  · constructor
    · rintro ⟨propagator, made⟩
      cases made.symm.trans failed
    · intro consistent
      exact absurd contradiction consistent

/-- Propagation agrees with unit consequences over whole sessions.  For clauses
without repeated literals, making a propagator and all calls on its line of descent
end well exactly if no contradiction follows, and then the units are precisely the
literals which follow from the assumptions. -/
theorem units_eq_unitConsequences {clauses : List (List Literal)}
    (few : clauses.length ≤ ClauseId.limit) (nonempty : ∀ clause ∈ clauses, clause ≠ [])
    (nodup : ∀ clause ∈ clauses, clause.Nodup) :
    ((∃ propagator, (Propagator.ofLists false clauses).result = .ok propagator) ↔
      ¬Contradictory (UnitConsequence clauses fun _ => False)) ∧
    ∀ propagator, (Propagator.ofLists false clauses).result = .ok propagator →
      ∀ calls, ∀ branch ∈ ((Session.start propagator).run calls).branches,
        (branch.wentWell = true ↔
          ¬Contradictory (UnitConsequence clauses (· ∈ branch.assumptions))) ∧
        (branch.wentWell = true → ∀ literal, literal ∈ branch.propagator.units ↔
          UnitConsequence clauses (· ∈ branch.assumptions) literal) := by
  rcases Formula.exists_ofLists few nonempty with ⟨formula, made, rfl⟩
  have apart := Formula.not_opensTwice_of_nodup nodup
  simp only [Propagator.result_ofLists made]
  refine ⟨Propagator.exists_ofFormula_iff apart, ?_⟩
  intro propagator ofFormula calls branch member
  exact (Session.reached ofFormula calls branch member).units_iff apart

/-- In a chain of two implications, assuming the first literal on a clone forces the last. -/
theorem chain_forces_in_clone :
    let first : Literal := ⟨1, by decide, by decide⟩
    let second : Literal := ⟨2, by decide, by decide⟩
    let third : Literal := ⟨3, by decide, by decide⟩
    let clauses := [[-first, second], [-second, third]]
    (clauses.length ≤ ClauseId.limit ∧ (∀ clause ∈ clauses, clause ≠ []) ∧
      ∀ clause ∈ clauses, clause.Nodup) ∧
    ∃ propagator, (Propagator.ofLists false clauses).result = .ok propagator ∧
      ∃ branch ∈ ((Session.start propagator).run [.clone 0, .assumeOne 1 first]).branches,
        branch.assumptions = [first] ∧ branch.wentWell = true ∧
          third ∈ branch.propagator.units := by
  intro first second third clauses
  have few : clauses.length ≤ ClauseId.limit := by decide
  have nonempty : ∀ clause ∈ clauses, clause ≠ [] := by decide
  have nodup : ∀ clause ∈ clauses, clause.Nodup := by decide
  refine ⟨⟨few, nonempty, nodup⟩, ?_⟩
  have agreement := units_eq_unitConsequences few nonempty nodup
  -- The assignment which makes every variable true is a model of the chain.
  have model : Assignment.IsModel (fun _ => true) clauses := by
    unfold Assignment.IsModel
    decide
  have consistent : ∀ given : Literal → Prop, (∀ literal, given literal → literal = first) →
      ¬Contradictory (UnitConsequence clauses given) := by
    intro given only contradiction
    refine UnitConsequence.not_isModel_of_contradictory contradiction ?_ model
    intro literal isGiven
    rw [only literal isGiven]
    decide
  rcases agreement.1.mpr (consistent _ fun _ => False.elim) with ⟨propagator, made⟩
  refine ⟨propagator, made, (Branch.made propagator).assumeOne first, ?_, rfl, ?_⟩
  · exact List.mem_cons_of_mem _ List.mem_cons_self
  · have clone := agreement.2 propagator made [.clone 0, .assumeOne 1 first]
      ((Branch.made propagator).assumeOne first) (List.mem_cons_of_mem _ List.mem_cons_self)
    have well := clone.1.mpr (consistent _ fun _ assumed => List.mem_singleton.mp assumed)
    refine ⟨well, (clone.2 well third).mpr ?_⟩
    have implied : ∀ condition conclusion, [-condition, conclusion] ∈ clauses →
        UnitConsequence clauses (· ∈ [first]) condition →
        UnitConsequence clauses (· ∈ [first]) conclusion := by
      intro condition conclusion listed holds
      refine .forced listed (List.mem_cons_of_mem _ List.mem_cons_self) ?_
      intro other member different
      rcases List.mem_cons.mp member with rfl | member
      · rwa [Literal.neg_neg]
      · exact absurd (List.mem_singleton.mp member) different
    exact implied second third (by decide) (implied first second (by decide)
      (.given List.mem_cons_self))

end UnitPropagation
