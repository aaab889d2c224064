import UnitPropagation.Proofs.Dimacs.Reduction
import UnitPropagation.Proofs.Propagation.Closure

namespace UnitPropagation

/-!
# Instances mean what their clauses mean

An instance leaves out exactly the tautologies, each with a record, and keeps the distinct
literals of any other clause.  So in a kept clause no variable occurs twice, and the checks of
a strict formula never object to an instance.

Nothing of the meaning is lost.  The kept clauses have the same models as all clauses.  They
also have the same unit propagation: whatever literals are given, there is a conflict with
the kept clauses exactly if there is one with all clauses read as sets, and the same literals
follow, unless a literal of a tautology follows together with its negation.  This is also what
propagators for the kept clauses find out, as for them a contradiction is the end.

That a contradiction has to be excluded for the consequences is shown by a single tautology.
From both of its opposite literals its third literal follows, but nothing follows once the
tautology is left out.
-/

/-- Whether unit propagation from the given literals ends in a conflict: a clause is empty, or
a literal follows together with its negation. -/
def MeetsConflict (clauses : List (List Literal)) (given : Literal → Prop) : Prop :=
  [] ∈ clauses ∨ Contradictory (UnitConsequence clauses given)

/-- Whether unit propagation from the given literals comes to the same end with the stored clauses
as with the clauses that they were made from.  A conflict is met with both or with none of them,
and the same literals follow.  Only if some of these contradict each other within a clause, which
is behind the end of propagation, may the stored clauses have fewer consequences. -/
structure SamePropagation (stored clauses : List (List Literal)) (given : Literal → Prop) :
    Prop where
  conflict_iff : MeetsConflict stored given ↔ MeetsConflict clauses given
  contradictory_iff : Contradictory (UnitConsequence stored given) ↔
    Contradictory (UnitConsequence clauses given)
  consequence_of_stored : ∀ literal, UnitConsequence stored given literal →
    UnitConsequence clauses given literal
  consequence_iff : ¬ContradictoryWithin clauses (UnitConsequence clauses given) → ∀ literal,
    UnitConsequence stored given literal ↔ UnitConsequence clauses given literal

/-- Whether propagators for the stored clauses find out what unit propagation finds out about the
clauses: a propagator can be made, and calls on it end well, unless there is a conflict, and
the units are the consequences of what was assumed. -/
structure PropagatesAs (strict : Bool) (stored clauses : List (List Literal)) : Prop where
  exists_made_iff : (∃ propagator, (Propagator.ofLists strict stored).result = .ok propagator) ↔
    ¬MeetsConflict clauses fun _ => False
  wentWell_iff : ∀ propagator, (Propagator.ofLists strict stored).result = .ok propagator →
    ∀ calls, ∀ branch ∈ ((Session.start propagator).run calls).branches,
      (branch.wentWell = true ↔ ¬MeetsConflict clauses (· ∈ branch.assumptions))
  units_iff : ∀ propagator, (Propagator.ofLists strict stored).result = .ok propagator →
    ∀ calls, ∀ branch ∈ ((Session.start propagator).run calls).branches,
      branch.wentWell = true → ∀ literal, literal ∈ branch.propagator.units ↔
        UnitConsequence clauses (· ∈ branch.assumptions) literal

variable {strict : Bool} {clauses : List (List Literal)}

/-- What was found out about clauses with the same propagation is what there is to find out. -/
theorem PropagatesAs.of_same {stored others : List (List Literal)}
    (propagates : PropagatesAs strict stored clauses)
    (same : ∀ given, SamePropagation clauses others given) : PropagatesAs strict stored others where
  exists_made_iff := propagates.exists_made_iff.trans (not_congr (same _).conflict_iff)
  wentWell_iff := by
    intro propagator made calls branch member
    exact (propagates.wentWell_iff propagator made calls branch member).trans
      (not_congr (same _).conflict_iff)
  units_iff := by
    intro propagator made calls branch member well literal
    have noConflict := (propagates.wentWell_iff propagator made calls branch member).mp well
    have consistent : ¬Contradictory (UnitConsequence others (· ∈ branch.assumptions)) :=
      mt Or.inr (mt (same _).conflict_iff.mpr noConflict)
    rw [propagates.units_iff propagator made calls branch member well literal]
    exact (same _).consequence_iff (mt ContradictoryWithin.contradictory consistent) literal

/-- Propagators for clauses without repeated variables find out what there is to find out. -/
theorem propagatesAs_self (few : clauses.length ≤ ClauseId.limit)
    (distinct : ∀ clause ∈ clauses, (clause.map Literal.var).Nodup) :
    PropagatesAs strict clauses clauses := by
  rcases Formula.exists_lists_or_emptyClause strict few distinct with
    ⟨noneEmpty, formula, made, rfl⟩ | ⟨hasEmpty, id, refused⟩
  · have apart := Formula.not_opensTwice_of_nodup fun list listed => (distinct list listed).of_map
    have conflict_iff : ∀ given, MeetsConflict formula.lists given ↔
        Contradictory (UnitConsequence formula.lists given) :=
      fun _ => or_iff_right noneEmpty
    have result := Propagator.result_ofLists made
    constructor
    case exists_made_iff =>
      rw [result, conflict_iff]
      exact Propagator.exists_ofFormula_iff apart
    case wentWell_iff =>
      intro propagator ofLists calls branch member
      rw [conflict_iff]
      exact ((Session.reached (result.symm.trans ofLists) calls branch member).units_iff apart).1
    case units_iff =>
      intro propagator ofLists calls branch member
      exact ((Session.reached (result.symm.trans ofLists) calls branch member).units_iff apart).2
  · have notMade : ∀ propagator, (Propagator.ofLists strict clauses).result ≠ .ok propagator := by
      intro propagator made
      rw [Propagator.ofLists, refused] at made
      cases made
    constructor
    case exists_made_iff =>
      constructor
      · rintro ⟨propagator, made⟩
        exact absurd made (notMade propagator)
      · exact fun consistent => absurd (Or.inl hasEmpty) consistent
    case wentWell_iff => exact fun propagator made => absurd made (notMade propagator)
    case units_iff => exact fun propagator made => absurd made (notMade propagator)

namespace Dimacs

/-- Whether a list consists of the distinct literals of a clause in the order of their first
occurrence. -/
structure Condenses (clause stored : List Literal) : Prop where
  mem_iff : ∀ literal, literal ∈ stored ↔ literal ∈ clause
  ordered : stored.Pairwise fun first second => clause.idxOf first < clause.idxOf second

theorem condenses_eraseDups (clause : List Literal) : Condenses clause clause.eraseDups := by
  induction clause using List.reverseRecOn with
  | nil => exact ⟨fun _ => Iff.rfl, .nil⟩
  | append_singleton front literal ih =>
      constructor
      case mem_iff => exact fun _ => List.mem_eraseDups
      case ordered =>
        -- A literal of the front occurs where it occurred before.
        have earlier : ∀ {other}, other ∈ front.eraseDups →
            (front ++ [literal]).idxOf other = front.idxOf other := fun known =>
          List.idxOf_append_of_mem (List.mem_eraseDups.mp known)
        have ordered : front.eraseDups.Pairwise fun first second =>
            (front ++ [literal]).idxOf first < (front ++ [literal]).idxOf second := by
          refine ih.ordered.imp_of_mem ?_
          intro first second firstMem secondMem before
          rw [earlier firstMem, earlier secondMem]
          exact before
        rw [eraseDups_concat]
        split
        · exact ordered
        · rename_i new
          refine List.pairwise_append.mpr ⟨ordered, List.pairwise_singleton _ _, ?_⟩
          intro other otherMem last isLast
          cases List.mem_singleton.mp isLast
          rw [earlier otherMem, List.idxOf_append_of_notMem new]
          exact Nat.lt_of_lt_of_le (List.idxOf_lt_length_of_mem (List.mem_eraseDups.mp otherMem))
            (Nat.le_add_right _ _)

theorem prepared_eq (clauses : List (List Literal)) :
    clauses.filterMap reduce? =
      (clauses.filter fun clause => ¬Tautological clause).map List.eraseDups := by
  induction clauses with
  | nil => rfl
  | cons clause clauses ih =>
      rw [List.filterMap_cons, ih, reduce?_eq]
      by_cases tautological : Tautological clause <;> simp [tautological]

theorem isTautology_eq (clause : List Literal) :
    isTautology clause = decide (Tautological clause) := by
  rw [isTautology, reduce?_eq]
  by_cases tautological : Tautological clause <;> simp [tautological]

/-! ## Prepared clauses make strict formulas -/

theorem push_eq_of_distinct (formula : Formula) {literals : List Literal}
    (distinct : (literals.map Literal.var).Nodup) :
    formula.push true literals = formula.push false literals := by
  cases literals with
  | nil => rfl
  | cons first rest =>
      have accepted : Clause.repeatsVariable ⟨first, rest⟩ = false := by
        rw [Clause.repeatsVariable, Clause.literals, decide_eq_true distinct]
        rfl
      simp only [Formula.push, Clause.ofList?, accepted, Bool.and_false]

/-- The checks of a strict formula find nothing in prepared clauses. -/
theorem ofLists_prepared_eq (clauses : List (List Literal)) :
    Formula.ofLists true (clauses.filterMap reduce?) =
      Formula.ofLists false (clauses.filterMap reduce?) := by
  have general : ∀ (remaining : List (List Literal)) (start : Formula),
      (∀ clause ∈ remaining, (clause.map Literal.var).Nodup) →
        remaining.foldlM (Formula.push true) start =
          remaining.foldlM (Formula.push false) start := by
    intro remaining
    induction remaining with
    | nil => exact fun _ _ => rfl
    | cons literals remaining ih =>
        intro start distinct
        rw [List.forall_mem_cons] at distinct
        rw [List.foldlM_cons, List.foldlM_cons, push_eq_of_distinct start distinct.1]
        exact bind_congr fun longer => ih longer distinct.2
  exact general _ .empty distinct_prepared

/-- Prepared clauses leave nothing to object to, unless they are too many. -/
theorem lt_length_of_fault {fault : Fault}
    (faulty : Formula.ofLists strict (clauses.filterMap reduce?) = .error (.fault fault)) :
    ClauseId.limit < (clauses.filterMap reduce?).length := by
  by_contra few
  rcases Formula.exists_lists_or_emptyClause strict (Nat.le_of_not_lt few) distinct_prepared with
    ⟨_, formula, made, _⟩ | ⟨_, id, refused⟩
  · cases faulty.symm.trans made
  · cases faulty.symm.trans refused

theorem value_of_tautological {clause : List Literal} (tautological : Tautological clause)
    (assignment : Assignment) : ∃ literal ∈ clause, assignment.value literal = true := by
  rcases tautological with ⟨literal, member, negatedMember⟩
  cases value : assignment.value literal with
  | true => exact ⟨literal, member, value⟩
  | false => exact ⟨-literal, negatedMember, by rw [Assignment.value_neg, value, Bool.not_false]⟩

theorem isModel_prepared_iff {assignment : Assignment} :
    assignment.IsModel (clauses.filterMap reduce?) ↔ assignment.IsModel clauses := by
  constructor
  · intro model clause member
    by_cases tautological : Tautological clause
    · exact value_of_tautological tautological assignment
    · rcases model _ (mem_prepared_iff.mpr ⟨clause, member, tautological, rfl⟩)
        with ⟨literal, literalMem, isTrue⟩
      exact ⟨literal, List.mem_eraseDups.mp literalMem, isTrue⟩
  · intro model reduced member
    rcases mem_prepared_iff.mp member with ⟨clause, clauseMem, _, rfl⟩
    rcases model clause clauseMem with ⟨literal, literalMem, isTrue⟩
    exact ⟨literal, List.mem_eraseDups.mpr literalMem, isTrue⟩

theorem samePropagation_prepared (clauses : List (List Literal)) (given : Literal → Prop) :
    SamePropagation (clauses.filterMap reduce?) clauses given where
  conflict_iff := or_congr nil_mem_prepared_iff contradictory_prepared_iff
  contradictory_iff := contradictory_prepared_iff
  consequence_of_stored := fun _ => unitConsequence_of_prepared
  consequence_iff := fun apart _ => unitConsequence_prepared_iff apart

/-- What an instance keeps of the clauses that it is made from, and what it leaves out.  The
tautologies are left out, each with a record of the whole clause; of any other clause the
distinct literals are kept, in the order of their first occurrence.  Hence no variable occurs
twice in a kept clause, it makes no difference to the kept clauses whether a formula is strict,
and the empty clause is kept.  The kept clauses have the models and the unit propagation of the
clauses themselves, as far as no two consequences contradict each other within a clause, and
this is what propagators for them find out. -/
theorem instance_keeps_meaning (variableCount : Nat) (clauses : List (List Literal)) :
    let stored := (Instance.ofContent ⟨variableCount, clauses⟩).clauses
    List.Forall₂ Condenses (clauses.filter fun clause => ¬Tautological clause) stored ∧
    skipRecords clauses = (clauses.filter fun clause => Tautological clause).map (fun clause =>
      { level := .debug
        message := "Skipping tautological clause (" ++
          " ".intercalate (clause.map fun literal => toString literal.code) ++ ")" }) ∧
    (∀ clause ∈ stored, (clause.map Literal.var).Nodup) ∧
    Formula.ofLists true stored = Formula.ofLists false stored ∧
    (∀ strict fault, Formula.ofLists strict stored = .error (.fault fault) →
      ClauseId.limit < stored.length) ∧
    ([] ∈ stored ↔ [] ∈ clauses) ∧
    (∀ assignment : Assignment, assignment.IsModel stored ↔ assignment.IsModel clauses) ∧
    (∀ given, SamePropagation stored clauses given) ∧
    ∀ strict, stored.length ≤ ClauseId.limit → PropagatesAs strict stored clauses := by
  intro stored
  have stored_eq : stored = clauses.filterMap reduce? := rfl
  have condensed : List.Forall₂ Condenses (clauses.filter fun clause => ¬Tautological clause)
      stored := by
    rw [stored_eq, prepared_eq, List.forall₂_map_right_iff, List.forall₂_same]
    exact fun clause _ => condenses_eraseDups clause
  have propagates : ∀ strict, stored.length ≤ ClauseId.limit → PropagatesAs strict stored clauses :=
    fun strict few => (propagatesAs_self few distinct_prepared).of_same
      (samePropagation_prepared clauses)
  refine ⟨condensed, ?_, distinct_prepared, ofLists_prepared_eq clauses,
    fun _ _ => lt_length_of_fault, nil_mem_prepared_iff, fun _ => isModel_prepared_iff,
    samePropagation_prepared clauses, propagates⟩
  rw [skipRecords, funext isTautology_eq]
  rfl

/-- A repetition and a tautology are left out.  The literal of the third clause follows from what
is kept, and it is a unit of the strict propagator. -/
theorem instance_of_repetition_and_tautology :
    let first : Literal := ⟨1, by decide, by decide⟩
    let second : Literal := ⟨2, by decide, by decide⟩
    let third : Literal := ⟨3, by decide, by decide⟩
    let clauses := [[first, second, first], [first, -first, third], [-third]]
    let stored := (Instance.ofContent ⟨3, clauses⟩).clauses
    stored = [[first, second], [-third]] ∧ stored.length ≤ ClauseId.limit ∧
    ¬ContradictoryWithin clauses (UnitConsequence clauses fun _ => False) ∧
    UnitConsequence stored (fun _ => False) (-third) ∧
    ∃ propagator, (Propagator.ofLists true stored).result = .ok propagator ∧
      -third ∈ propagator.units := by
  intro first second third clauses stored
  have kept : stored = [[first, second], [-third]] := by decide
  have few : stored.length ≤ ClauseId.limit := by decide
  rcases instance_keeps_meaning 3 clauses with ⟨_, _, _, _, _, _, _, same, propagates⟩
  have propagates := propagates true few
  -- The third variable alone is false in a model of the clauses.
  have model : Assignment.IsModel (fun v => v.index != 3) clauses := by
    unfold Assignment.IsModel
    decide
  have consistent : ¬Contradictory (UnitConsequence clauses fun _ => False) := fun contradiction =>
    UnitConsequence.not_isModel_of_contradictory contradiction (fun _ => False.elim) model
  have apart : ¬ContradictoryWithin clauses (UnitConsequence clauses fun _ => False) :=
    mt ContradictoryWithin.contradictory consistent
  have noConflict : ¬MeetsConflict clauses fun _ => False :=
    not_or.mpr ⟨by decide, consistent⟩
  have follows : UnitConsequence clauses (fun _ => False) (-third) := by
    refine .forced (List.mem_cons_of_mem _ (List.mem_cons_of_mem _ List.mem_cons_self))
      List.mem_cons_self ?_
    intro other member different
    exact absurd (List.mem_singleton.mp member) different
  refine ⟨kept, few, apart, ((same _).consequence_iff apart _).mpr follows, ?_⟩
  rcases propagates.exists_made_iff.mpr noConflict with ⟨propagator, made⟩
  have units := propagates.units_iff propagator made [] (.made propagator) List.mem_cons_self rfl
  refine ⟨propagator, made, (units (-third)).mpr (follows.mono fun _ => False.elim)⟩

/-- A tautology forces its third literal, if both of its opposite literals are given.  Nothing
follows from them once the tautology is left out, so a contradiction within a clause has to be
excluded where consequences are compared. -/
theorem tautology_forces_behind_contradiction :
    let first : Literal := ⟨1, by decide, by decide⟩
    let second : Literal := ⟨2, by decide, by decide⟩
    let clauses := [[first, -first, second]]
    let stored := (Instance.ofContent ⟨2, clauses⟩).clauses
    let given := (· ∈ [first, -first])
    stored = [] ∧ UnitConsequence clauses given second ∧ ¬UnitConsequence stored given second ∧
      ¬∀ literal, UnitConsequence stored given literal ↔ UnitConsequence clauses given literal := by
  intro first second clauses stored given
  have stored_eq : stored = [] := by decide
  have follows : UnitConsequence clauses given second := by
    refine .forced List.mem_cons_self (by decide : second ∈ [first, -first, second]) ?_
    have opposites : ∀ other ∈ [first, -first, second], other ≠ second →
        -other ∈ [first, -first] := by decide
    exact fun other member different => .given (opposites other member different)
  have lost : ¬UnitConsequence stored given second := by
    rw [stored_eq]
    intro follows
    cases follows with
    | given isGiven => exact absurd isGiven (by decide)
    | forced isClause => cases isClause
  exact ⟨stored_eq, follows, lost, fun same => lost ((same second).mpr follows)⟩

end Dimacs
end UnitPropagation
