import UnitPropagation.Proofs.Propagation.Closure

namespace UnitPropagation

/-!
# Models

An assignment which is a model of the clauses, and which makes the assumed literals
true, is never contradicted by propagation.  Conversely a propagator whose calls
ended well falsifies no clause.  Once every variable of the clauses has been assumed
the two meet: all calls end well exactly if the assumed assignment is a model.

Nothing here is assumed about the literals within a clause.  A clause that repeats
its first literal may keep a watch which is false for good, and then a literal that
it forces can be missing from the units.  Falsified clauses are noticed nevertheless,
because one attended watch is enough for that.
-/

namespace Propagator

/-- Whether the propagator leaves every one of the clauses a literal which is not false. -/
def Spares (propagator : Propagator) (clauses : List (List Literal)) : Prop :=
  ∀ clause ∈ clauses, ∃ literal ∈ clause, -literal ∉ propagator.units

theorem Settled.spares {propagator : Propagator} {formula : Formula} {given : Literal → Prop}
    (settled : propagator.Settled formula given)
    (units_given : ∀ literal ∈ formula.unitLiterals, given literal) :
    propagator.Spares formula.lists := by
  intro list listed
  rcases Formula.mem_lists_iff.mp listed with ⟨id, clause, read, rfl⟩
  have guarded := settled.guarded default
  rcases settled.satisfies_or_watched units_given read with
    ⟨literal, member, isUnit⟩ | ⟨first, second, found⟩
  · exact ⟨literal, member, guarded.units_consistent literal isUnit⟩
  · have own := settled.watch_mem read found
    rcases guarded.not_false_either settled.queue_eq found with free | free
    · exact ⟨first, own.1, free⟩
    · exact ⟨second, own.2, free⟩

variable {assignment : Assignment} {formula : Formula}

/-- The unit clauses are clauses, so that a model makes their literals true. -/
theorem value_of_given (model : assignment.IsModel formula.lists) {assumptions : List Literal}
    (assumed : ∀ literal ∈ assumptions, assignment.value literal = true) :
    ∀ literal, formula.Given assumptions literal → assignment.value literal = true := by
  rintro literal (isUnit | isAssumed)
  · rcases Formula.mem_unitLiterals_iff.mp isUnit with ⟨id, ⟨first, rest⟩, read, alone, rfl⟩
    cases List.isEmpty_iff.mp alone
    rcases model _ (Formula.literals_mem_lists read) with ⟨satisfied, member, isTrue⟩
    exact List.mem_singleton.mp member ▸ isTrue
  · exact assumed literal isAssumed

theorem exists_ofFormula_of_isModel (model : assignment.IsModel formula.lists) :
    ∃ propagator, (ofFormula formula).result = .ok propagator := by
  rcases ofFormula_cases formula with ⟨propagator, made, _⟩ | ⟨conflict, _, contradiction⟩
  · exact ⟨propagator, made⟩
  · have given_true : ∀ literal, formula.Given [] literal → assignment.value literal = true :=
      value_of_given model (by simp)
    exact absurd model (UnitConsequence.not_isModel_of_contradictory contradiction given_true)

end Propagator

namespace Branch.Reached

variable {branch : Branch} {formula : Formula} {assignment : Assignment}

/-- A model which makes the assumptions true is never contradicted. -/
theorem wentWell_of_isModel (reached : branch.Reached formula)
    (model : assignment.IsModel formula.lists)
    (assumed : ∀ literal ∈ branch.assumptions, assignment.value literal = true) :
    branch.wentWell = true := by
  cases well : branch.wentWell with
  | true => rfl
  | false =>
      have given_true := Propagator.value_of_given model assumed
      exact absurd model
        (UnitConsequence.not_isModel_of_contradictory (reached.broken well).contradictory given_true)

theorem value_of_mem_units (reached : branch.Reached formula)
    (model : assignment.IsModel formula.lists)
    (assumed : ∀ literal ∈ branch.assumptions, assignment.value literal = true) :
    ∀ literal ∈ branch.propagator.units, assignment.value literal = true := by
  intro literal isUnit
  have settled := reached.settled (reached.wentWell_of_isModel model assumed)
  exact (settled.units_follow literal isUnit).value_of_isModel model
    (Propagator.value_of_given model assumed)

theorem spares (reached : branch.Reached formula) (well : branch.wentWell = true) :
    branch.propagator.Spares formula.lists :=
  (reached.settled well).spares (formula.units_given branch.assumptions)

/-- A call cannot end well on a line on which an earlier call has failed. -/
theorem wentWell_of_result_eq_ok (reached : branch.Reached formula) {literals : List Literal}
    {derived : Std.TreeSet Literal}
    (ended : (branch.propagator.assume literals).result = .ok derived) :
    (branch.assume literals).wentWell = true := by
  rcases reached.history.settled_or_broken with settled | broken
  · rw [Branch.assume, reached.wentWell_eq, settled.consistent, ended]
    rfl
  · cases (broken.assume literals).1.symm.trans ended

/-- If all variables of the clauses are assumed and the calls ended well, the
assumed assignment is a model. -/
theorem isModel_of_wentWell (reached : branch.Reached formula) (well : branch.wentWell = true)
    (assumed : ∀ literal ∈ branch.assumptions, assignment.value literal = true)
    (total : ∀ clause ∈ formula.lists, ∀ literal ∈ clause,
      literal ∈ branch.assumptions ∨ -literal ∈ branch.assumptions) :
    assignment.IsModel formula.lists := by
  intro clause listed
  rcases reached.spares well clause listed with ⟨literal, member, free⟩
  refine ⟨literal, member, ?_⟩
  rcases total clause listed literal member with isAssumed | negated
  · exact assumed literal isAssumed
  · exact absurd ((reached.settled well).given_units _ (Or.inr negated)) free

end Branch.Reached

/-- Propagation is sound and complete for models, whatever the clauses repeat.  Models
survive it, no successful call leaves a falsified clause, and assuming all literals of
an assignment, in batches of any kind, succeeds exactly for models. -/
theorem propagation_respects_models {clauses : List (List Literal)}
    (few : clauses.length ≤ ClauseId.limit) (nonempty : ∀ clause ∈ clauses, clause ≠ []) :
    (∀ assignment : Assignment, assignment.IsModel clauses →
      (∃ propagator, (Propagator.ofLists false clauses).result = .ok propagator) ∧
      ∀ propagator, (Propagator.ofLists false clauses).result = .ok propagator →
        ∀ calls, ∀ branch ∈ ((Session.start propagator).run calls).branches,
          (∀ literal ∈ branch.assumptions, assignment.value literal = true) →
            branch.wentWell = true ∧
              ∀ literal ∈ branch.propagator.units, assignment.value literal = true) ∧
    (∀ propagator, (Propagator.ofLists false clauses).result = .ok propagator →
      propagator.Spares clauses ∧
      ∀ calls, ∀ branch ∈ ((Session.start propagator).run calls).branches, ∀ literals derived,
        (branch.propagator.assume literals).result = .ok derived →
          (branch.propagator.assume literals).propagator.Spares clauses) ∧
    ∀ (assignment : Assignment) (batches : List (List Literal)),
      (∀ literal ∈ batches.flatten, assignment.value literal = true) →
      (∀ clause ∈ clauses, ∀ literal ∈ clause,
        literal ∈ batches.flatten ∨ -literal ∈ batches.flatten) →
      ((∃ propagator, (Propagator.ofLists false clauses).result = .ok propagator ∧
        ((Branch.made propagator).assumeAll batches).wentWell = true) ↔
          assignment.IsModel clauses) := by
  rcases Formula.exists_ofLists few nonempty with ⟨formula, formulaMade, rfl⟩
  simp only [Propagator.result_ofLists formulaMade]
  refine ⟨?_, ?_, ?_⟩
  · intro assignment model
    refine ⟨Propagator.exists_ofFormula_of_isModel model, ?_⟩
    intro propagator made calls branch member assumed
    have reached := Session.reached made calls branch member
    exact ⟨reached.wentWell_of_isModel model assumed, reached.value_of_mem_units model assumed⟩
  · intro propagator made
    refine ⟨(Branch.reached_made made).spares rfl, ?_⟩
    intro calls branch member literals derived ended
    have reached := Session.reached made calls branch member
    exact (reached.assume literals).spares (reached.wentWell_of_result_eq_ok ended)
  · intro assignment batches assumed total
    have assumptions : ∀ propagator,
        ((Branch.made propagator).assumeAll batches).assumptions = batches.flatten := by
      intro propagator
      rw [Branch.assumptions_assumeAll]
      exact List.nil_append _
    constructor
    · rintro ⟨propagator, made, well⟩
      have reached := (Branch.reached_made made).assumeAll batches
      rw [← assumptions propagator] at assumed total
      exact reached.isModel_of_wentWell well assumed total
    · intro model
      rcases Propagator.exists_ofFormula_of_isModel model with ⟨propagator, made⟩
      have reached := (Branch.reached_made made).assumeAll batches
      rw [← assumptions propagator] at assumed
      exact ⟨propagator, made, reached.wentWell_of_isModel model assumed⟩

/-- A clause that opens with a repetition is satisfied or noticed to be falsified,
depending on the assignment which is assumed. -/
theorem repeated_literals_are_decided :
    let first : Literal := ⟨1, by decide, by decide⟩
    let second : Literal := ⟨2, by decide, by decide⟩
    let clauses := [[first, first, second], [-second, second]]
    (clauses.length ≤ ClauseId.limit ∧ ∀ clause ∈ clauses, clause ≠ []) ∧
    ∃ propagator, (Propagator.ofLists false clauses).result = .ok propagator ∧
      ((Branch.made propagator).assumeAll [[-first], [second]]).wentWell = true ∧
      ((Branch.made propagator).assumeAll [[-first], [-second]]).wentWell = false := by
  intro first second clauses
  have few : clauses.length ≤ ClauseId.limit := by decide
  have nonempty : ∀ clause ∈ clauses, clause ≠ [] := by decide
  refine ⟨⟨few, nonempty⟩, ?_⟩
  have respects := propagation_respects_models few nonempty
  have decided := respects.2.2
  have model : Assignment.IsModel (fun number => decide (number = second.var)) clauses := by
    unfold Assignment.IsModel
    decide
  rcases (decided _ [[-first], [second]] (by decide) (by decide)).mpr model with
    ⟨propagator, made, well⟩
  refine ⟨propagator, made, well, ?_⟩
  apply Bool.eq_false_iff.mpr
  intro impossible
  have noModel : ¬Assignment.IsModel (fun _ => false) clauses := by
    unfold Assignment.IsModel
    decide
  exact noModel ((decided _ [[-first], [-second]] (by decide) (by decide)).mp
    ⟨propagator, made, impossible⟩)

end UnitPropagation
