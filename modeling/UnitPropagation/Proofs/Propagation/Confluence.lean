import UnitPropagation.Proofs.Propagation.Contract
import UnitPropagation.Proofs.Propagation.Limit
import UnitPropagation.Proofs.Propagation.Line
import UnitPropagation.Propagator.Feeding

namespace UnitPropagation

/-!
# Feedings end alike

It makes no difference in which way and in which order literals are given to a
propagator.  The limit of propagation is described without any order, and a literal
that is given by a unit clause has the same consequences as one that is assumed.  So
two feedings of one set of literals either both meet a conflict or both end well, and
then with the same units.

The clauses may repeat literals and may be tautologies.
-/

namespace Interspersed

variable {clauses longer : List (List Literal)} {units : List Literal}

/-- Unit clauses open with no repetition. -/
theorem mem_steady_iff (interspersed : Interspersed clauses units longer) {clause : List Literal} :
    clause ∈ steady longer ↔ clause ∈ steady clauses ∨ ∃ literal ∈ units, clause = [literal] := by
  simp only [UnitPropagation.mem_steady_iff, interspersed.mem_iff]
  constructor
  · rintro ⟨listed | isUnit, apart⟩
    · exact Or.inl ⟨listed, apart⟩
    · exact Or.inr isUnit
  · rintro (⟨listed, apart⟩ | ⟨literal, member, rfl⟩)
    · exact ⟨Or.inl listed, apart⟩
    · exact ⟨Or.inr ⟨literal, member, rfl⟩, rfl⟩

variable {given all : Literal → Prop}

/-- A unit clause has the same consequences as its literal where that is given. -/
theorem steadyConsequence_iff (interspersed : Interspersed clauses units longer)
    (all_iff : ∀ literal, all literal ↔ literal ∈ units ∨ given literal) {literal : Literal} :
    SteadyConsequence longer given literal ↔ SteadyConsequence clauses all literal := by
  constructor
  · intro follows
    induction follows with
    | given isGiven => exact .given ((all_iff _).mpr (Or.inr isGiven))
    | @forced clause literal isSteady member _ ih =>
        rcases interspersed.mem_steady_iff.mp isSteady with before | ⟨unit, isUnit, rfl⟩
        · exact .forced before member ih
        · cases List.mem_singleton.mp member
          exact .given ((all_iff _).mpr (Or.inl isUnit))
  · intro follows
    induction follows with
    | given isGiven =>
        rcases (all_iff _).mp isGiven with isUnit | isGiven
        · refine .forced (interspersed.mem_steady_iff.mpr (Or.inr ⟨_, isUnit, rfl⟩))
            List.mem_cons_self ?_
          intro other member different
          exact absurd (List.mem_singleton.mp member) different
        · exact .given isGiven
    | forced isSteady member _ ih =>
        exact .forced (interspersed.mem_steady_iff.mpr (Or.inl isSteady)) member ih

/-- A falsified unit clause makes the consequences contradictory already. -/
theorem refutes_iff (interspersed : Interspersed clauses units longer)
    (all_iff : ∀ literal, all literal ↔ literal ∈ units ∨ given literal) :
    Refutes longer given ↔ Refutes clauses all := by
  have same : SteadyConsequence longer given = SteadyConsequence clauses all := by
    funext literal
    exact propext (interspersed.steadyConsequence_iff all_iff)
  rw [Refutes, Refutes, same]
  constructor
  · rintro (contradiction | ⟨clause, listed, allFalse⟩)
    · exact Or.inl contradiction
    · rcases interspersed.mem_iff.mp listed with before | ⟨unit, isUnit, rfl⟩
      · exact Or.inr ⟨clause, before, allFalse⟩
      · have follows : SteadyConsequence clauses all unit := .given ((all_iff unit).mpr (Or.inl isUnit))
        exact Or.inl ⟨unit, follows, allFalse unit List.mem_cons_self⟩
  · rintro (contradiction | ⟨clause, listed, allFalse⟩)
    · exact Or.inl contradiction
    · exact Or.inr ⟨clause, interspersed.mem_iff.mpr (Or.inl listed), allFalse⟩

theorem nonempty (interspersed : Interspersed clauses units longer)
    (before : ∀ clause ∈ clauses, clause ≠ []) : ∀ clause ∈ longer, clause ≠ [] := by
  intro clause listed
  rcases interspersed.mem_iff.mp listed with listed | ⟨literal, _, rfl⟩
  · exact before clause listed
  · exact List.cons_ne_nil literal []

end Interspersed

/-- The literals of unit clauses are steady consequences, given or not. -/
theorem Formula.steadyConsequence_given_iff {formula : Formula} {assumptions : List Literal}
    {literal : Literal} :
    SteadyConsequence formula.lists (formula.Given assumptions) literal ↔
      SteadyConsequence formula.lists (· ∈ assumptions) literal := by
  constructor
  · intro follows
    apply UnitConsequence.of_unitConsequence
    apply follows.mono
    rintro unit (isUnit | assumed)
    · rcases mem_unitLiterals_iff.mp isUnit with ⟨id, ⟨first, rest⟩, read, alone, rfl⟩
      cases List.isEmpty_iff.mp alone
      have apart : ¬Clause.OpensTwice ⟨first, []⟩ := by simp [Clause.OpensTwice]
      refine .forced (literals_mem_steady read apart) List.mem_cons_self ?_
      intro other member different
      exact absurd (List.mem_singleton.mp member) different
    · exact .given assumed
  · intro follows
    exact follows.mono fun _ assumed => Or.inr assumed

theorem Formula.refutes_given_iff {formula : Formula} {assumptions : List Literal} :
    Refutes formula.lists (formula.Given assumptions) ↔ Refutes formula.lists (· ∈ assumptions) := by
  simp only [Refutes, Contradictory, steadyConsequence_given_iff]

/-- On a line of calls some call meets a conflict exactly if the branch did not go well. -/
theorem Propagator.exists_conflict_of_failure {formula : Formula} (line : List (List Literal)) :
    ∀ {assumptions : List Literal} {propagator : Propagator},
      History formula assumptions propagator → propagator.failure? line ≠ none →
        ∃ conflict, propagator.failure? line = some (.conflict conflict) := by
  induction line with
  | nil =>
      intro assumptions propagator _ failed
      exact absurd rfl failed
  | cons literals line ih =>
      intro assumptions propagator history failed
      have noFault := assume_ne_fault history literals
      simp only [failure?, Answer.stop?] at failed ⊢
      cases ended : (propagator.assume literals).result with
      | ok derived =>
          rw [ended] at failed
          simpa using ih (.assumed literals history) (by simpa using failed)
      | error stop =>
          cases stop with
          | conflict conflict => exact ⟨conflict, rfl⟩
          | fault fault => exact absurd ended (noFault fault)

/-- A line of calls ends well exactly if its literals are not refuted, and then the units
are their consequences. -/
theorem Branch.limit_of_line {formula : Formula} {propagator : Propagator}
    (made : (Propagator.ofFormula formula).result = .ok propagator) (line : List (List Literal)) :
    (propagator.failure? line = none ↔ ¬Refutes formula.lists (· ∈ line.flatten)) ∧
    (propagator.failure? line = none →
      ((Branch.made propagator).assumeAll line).wentWell = true ∧
      ∀ literal, literal ∈ ((Branch.made propagator).assumeAll line).propagator.units ↔
        SteadyConsequence formula.lists (· ∈ line.flatten) literal) := by
  have limit := ((reached_made made).assumeAll line).limit
  have assumptions : ((Branch.made propagator).assumeAll line).assumptions = line.flatten :=
    assumptions_assumeAll _ _
  have well_iff : ((Branch.made propagator).assumeAll line).wentWell = true ↔
      propagator.failure? line = none := by
    rw [wentWell_assumeAll, Bool.and_eq_true, Option.isNone_iff_eq_none]
    exact and_iff_right rfl
  rw [assumptions, Formula.refutes_given_iff, well_iff] at limit
  simp only [Formula.steadyConsequence_given_iff] at limit
  exact ⟨limit.1, fun ended => ⟨well_iff.mpr ended, limit.2 ended⟩⟩

namespace Feeding

variable {clauses : List (List Literal)} {literals : Std.TreeSet Literal}

/-- A feeding meets a conflict where its literals are refuted, and otherwise ends well with
the consequences of its literals. -/
theorem outcome (feeding : Feeding clauses literals) (nonempty : ∀ clause ∈ clauses, clause ≠ [])
    (few : feeding.extended.length ≤ ClauseId.limit) :
    (Refutes clauses (· ∈ literals) ∧ feeding.MeetsConflict) ∨
    (¬Refutes clauses (· ∈ literals) ∧ ∃ branch, feeding.EndsWellIn branch ∧
      ∀ literal, literal ∈ branch.propagator.units ↔
        SteadyConsequence clauses (· ∈ literals) literal) := by
  rcases Formula.exists_ofLists few (feeding.interspersed.nonempty nonempty) with
    ⟨formula, formulaMade, lists⟩
  have made_eq : feeding.made = (Propagator.ofFormula formula).result :=
    Propagator.result_ofLists formulaMade
  have refutes_iff := feeding.interspersed.refutes_iff feeding.mem_iff
  rw [← lists] at refutes_iff
  rcases Propagator.ofFormula_limited formula with ⟨propagator, made, _⟩ | ⟨⟨conflict, failed⟩, refutes⟩
  · have limit := Branch.limit_of_line made feeding.line
    rw [refutes_iff] at limit
    by_cases ended : propagator.failure? feeding.line = none
    · rcases limit.2 ended with ⟨well, units⟩
      have found : ((Session.start propagator).run feeding.calls).branches[feeding.slot]? =
          some ((Branch.made propagator).assumeAll feeding.line) := by
        rw [Session.getElem?_branches_run made, feeding.line_eq]
        rfl
      refine Or.inr ⟨limit.1.mp ended, _, ⟨propagator, made_eq.trans made, found, well⟩, ?_⟩
      intro literal
      rw [units, lists]
      exact feeding.interspersed.steadyConsequence_iff feeding.mem_iff
    · rcases Propagator.exists_conflict_of_failure feeding.line (.made made) ended with
        ⟨conflict, failure⟩
      refine Or.inl ⟨Classical.not_not.mp (mt limit.1.mpr ended), conflict, ?_⟩
      exact Or.inr ⟨propagator, made_eq.trans made, failure⟩
  · rw [Formula.refutes_given_iff] at refutes
    have more : Refutes formula.lists (· ∈ feeding.line.flatten) :=
      refutes.mono fun _ assumed => absurd assumed List.not_mem_nil
    exact Or.inl ⟨refutes_iff.mp more, conflict, Or.inl (made_eq.trans failed)⟩

end Feeding

/-- Any two feedings of the same literals end alike: both meet a conflict, or both end
well and with the same units. -/
theorem feedings_end_alike {clauses : List (List Literal)}
    (nonempty : ∀ clause ∈ clauses, clause ≠ []) {literals : Std.TreeSet Literal}
    (first second : Feeding clauses literals) (fewFirst : first.extended.length ≤ ClauseId.limit)
    (fewSecond : second.extended.length ≤ ClauseId.limit) :
    (first.MeetsConflict ∧ second.MeetsConflict) ∨
    ∃ one other, first.EndsWellIn one ∧ second.EndsWellIn other ∧
      ∀ literal, literal ∈ one.propagator.units ↔ literal ∈ other.propagator.units := by
  rcases first.outcome nonempty fewFirst with ⟨refutes, conflict⟩ | ⟨free, one, well, units⟩
  · rcases second.outcome nonempty fewSecond with ⟨_, otherConflict⟩ | ⟨free, _⟩
    · exact Or.inl ⟨conflict, otherConflict⟩
    · exact absurd refutes free
  · rcases second.outcome nonempty fewSecond with ⟨refutes, _⟩ | ⟨_, other, otherWell, otherUnits⟩
    · exact absurd refutes free
    · refine Or.inr ⟨one, other, well, otherWell, ?_⟩
      intro literal
      rw [units, otherUnits]

/-- A literal given by a unit clause or on a clone, another one assumed before or after it
and twice: the feedings end well and alike, although one of the clauses repeats a literal. -/
theorem unit_clause_and_clone_end_alike :
    let first : Literal := ⟨1, by decide, by decide⟩
    let second : Literal := ⟨2, by decide, by decide⟩
    let third : Literal := ⟨3, by decide, by decide⟩
    let clauses := [[first, first, second], [-second, third]]
    let literals := ((∅ : Std.TreeSet Literal).insert (-first)).insert second
    (∀ clause ∈ clauses, clause ≠ []) ∧ ∃ one other : Feeding clauses literals,
      one.units = [-first] ∧ one.line = [[second, second]] ∧ other.units = [] ∧
        other.line = [[second], [-first]] ∧ other.calls = [.assumeOne 0 second, .clone 0,
          .assume 0 [-second], .assume 1 [-first]] ∧
      (one.extended.length ≤ ClauseId.limit ∧ other.extended.length ≤ ClauseId.limit) ∧
      ∃ oneEnd otherEnd, one.EndsWellIn oneEnd ∧ other.EndsWellIn otherEnd ∧
        ∀ literal, literal ∈ oneEnd.propagator.units ↔ literal ∈ otherEnd.propagator.units := by
  intro first second third clauses literals
  have nonempty : ∀ clause ∈ clauses, clause ≠ [] := by decide
  have mem_literals : ∀ literal, literal ∈ literals ↔ literal = -first ∨ literal = second := by
    intro literal
    simp only [literals, Std.TreeSet.mem_insert, Std.LawfulEqCmp.compare_eq_iff_eq]
    constructor
    · rintro (rfl | rfl | impossible)
      · exact Or.inr rfl
      · exact Or.inl rfl
      · simp at impossible
    · rintro (rfl | rfl)
      · exact Or.inr (Or.inl rfl)
      · exact Or.inl rfl
  let one : Feeding clauses literals := {
    units := [-first]
    extended := [[first, first, second], [-first], [-second, third]]
    interspersed := .clause _ (.unit _ (.clause _ .nil))
    calls := [.assume 0 [second, second]]
    slot := 0
    line := [[second, second]]
    line_eq := rfl
    mem_iff := by simp [mem_literals] }
  let other : Feeding clauses literals := {
    units := []
    extended := clauses
    interspersed := .clause _ (.clause _ .nil)
    calls := [.assumeOne 0 second, .clone 0, .assume 0 [-second], .assume 1 [-first]]
    slot := 1
    line := [[second], [-first]]
    line_eq := rfl
    mem_iff := by simp [mem_literals, or_comm] }
  have few : one.extended.length ≤ ClauseId.limit ∧ other.extended.length ≤ ClauseId.limit :=
    ⟨(by decide : 3 ≤ ClauseId.limit), (by decide : 2 ≤ ClauseId.limit)⟩
  refine ⟨nonempty, one, other, rfl, rfl, rfl, rfl, rfl, few, ?_⟩
  have evaluated : (Propagator.ofLists false
      [[first, first, second], [-first], [-second, third]]).result.toOption.any
        (fun propagator => decide (propagator.failure? [[second, second]] = none)) = true := by
    decide +kernel
  have endsWell : one.made.toOption.any
      (fun propagator => decide (propagator.failure? one.line = none)) = true := evaluated
  rcases feedings_end_alike nonempty one other few.1 few.2 with ⟨⟨conflict, met⟩, _⟩ | alike
  · rcases met with failed | ⟨propagator, made, failure⟩
    · rw [failed] at endsWell
      cases endsWell
    · simp [made, Except.toOption, failure] at endsWell
  · exact alike

end UnitPropagation
