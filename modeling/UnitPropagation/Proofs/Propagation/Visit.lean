import UnitPropagation.Proofs.Watches.Coherence
import UnitPropagation.Propagator.Visit

namespace UnitPropagation

/-!
# What a visit can do

A visit to a clause is one of four things, and `Visited` lists them with the facts
on which each rests: the clause has a true literal and is retired; a literal that
is not assigned takes over the watch; the partner is forced; all literals are false
and the visit ends in a conflict.  With coherent watches nothing else can happen.
In particular no visit leaves the contract of an operation, and a forced literal
never meets its own negation.

Everything about draining is derived from this list, and the definition of a visit
is not opened again.
-/

/-- What a finding says about a clause with the given partner. -/
def Finding.Describes (propagator : Propagator) (clause : Clause) (partner : Literal) :
    Finding → Prop
  | .satisfied => ∃ literal, (literal = partner ∨ literal ∈ clause.literals) ∧
      literal ∈ propagator.units
  | .movable kept replacement => kept = partner ∧ replacement ∈ clause.literals ∧
      replacement ≠ partner ∧ replacement ∉ propagator.units ∧ -replacement ∉ propagator.units
  | .forcing forced => forced = partner ∧ partner ∉ propagator.units ∧
      -partner ∉ propagator.units ∧
      ∀ literal ∈ clause.literals, literal ≠ partner → -literal ∈ propagator.units
  | .falsified last => last = partner ∧ -partner ∈ propagator.units ∧
      ∀ literal ∈ clause.literals, literal ≠ partner → -literal ∈ propagator.units

namespace Propagator

theorem isFalse_eq_false_iff {propagator : Propagator} {literal : Literal} :
    propagator.isFalse literal = false ↔ -literal ∉ propagator.units := by
  rw [← isFalse_iff, Bool.not_eq_true]

/-- The search for a replacement stops at a literal which could take over the watch. -/
theorem replacement?_eq_some {propagator : Propagator} {clause : Clause}
    {partner replacement : Literal}
    (found : propagator.replacement? clause partner = some replacement) :
    replacement ∈ clause.literals ∧ replacement ≠ partner ∧ -replacement ∉ propagator.units := by
  have accepted := List.find?_some found
  simp only [Bool.and_eq_true, decide_eq_true_eq, Bool.not_eq_true', isFalse_eq_false_iff] at accepted
  exact ⟨List.mem_of_find?_eq_some found, accepted⟩

/-- It finds none only if all literals beside the partner are false. -/
theorem replacement?_eq_none {propagator : Propagator} {clause : Clause} {partner : Literal}
    (missing : propagator.replacement? clause partner = none) :
    ∀ literal ∈ clause.literals, literal ≠ partner → -literal ∈ propagator.units := by
  intro literal member different
  have refused := List.find?_eq_none.mp missing literal member
  simp only [Bool.and_eq_true, decide_eq_true_eq, Bool.not_eq_true', isFalse_eq_false_iff,
    not_and, Classical.not_not] at refused
  exact refused different

theorem judge_describes (propagator : Propagator) (clause : Clause) (partner : Literal) :
    (propagator.judge clause partner).Describes propagator clause partner := by
  unfold judge
  by_cases partnerTrue : propagator.isTrue partner = true
  · rw [if_pos partnerTrue]
    exact ⟨partner, Or.inl rfl, isTrue_iff.mp partnerTrue⟩
  · rw [if_neg partnerTrue]
    have unsatisfied : partner ∉ propagator.units := mt isTrue_iff.mpr partnerTrue
    cases search : propagator.replacement? clause partner with
    | some replacement =>
        rcases replacement?_eq_some search with ⟨member, different, notFalse⟩
        by_cases replacementTrue : propagator.isTrue replacement = true
        · simp only [if_pos replacementTrue]
          exact ⟨replacement, Or.inr member, isTrue_iff.mp replacementTrue⟩
        · simp only [if_neg replacementTrue]
          exact ⟨rfl, member, different, mt isTrue_iff.mpr replacementTrue, notFalse⟩
    | none =>
        have othersFalse := replacement?_eq_none search
        by_cases partnerFalse : propagator.isFalse partner = true
        · simp only [if_pos partnerFalse]
          exact ⟨rfl, isFalse_iff.mp partnerFalse, othersFalse⟩
        · simp only [if_neg partnerFalse]
          exact ⟨rfl, unsatisfied, mt isFalse_iff.mpr partnerFalse, othersFalse⟩

/-- What a visit looks at: the standing of the clause, its partner, and its literals. -/
structure Sees (propagator : Propagator) (lost : Literal) (id : ClauseId) (standing : Standing)
    (partner : Literal) (clause : Clause) : Prop where
  standing_eq : propagator.watches.standing id = .ok standing
  partner_eq : standing.partner id lost = .ok partner
  clause_eq : propagator.formula.clause id = .ok clause

theorem Sees.examine_eq {propagator : Propagator} {lost : Literal} {id : ClauseId}
    {standing : Standing} {partner : Literal} {clause : Clause}
    (sees : propagator.Sees lost id standing partner clause) :
    propagator.examine lost id = .ok (propagator.judge clause partner) := by
  rw [examine, sees.standing_eq, sees.clause_eq]
  change (standing.partner id lost >>= fun partner => pure (propagator.judge clause partner)) = _
  rw [sees.partner_eq]
  rfl

end Propagator

namespace Round

/-- The round in which a clause of the given standing is retired. -/
def retired (round : Round) (id : ClauseId) (standing : Standing) : Round :=
  round.update fun propagator =>
    { propagator with
      watches := propagator.watches.retire id standing
      tally := { propagator.tally with retiredClauses := propagator.tally.retiredClauses + 1 } }

/-- The round in which a clause is watched by its partner and a replacement. -/
def rewatched (round : Round) (id : ClauseId) (partner replacement : Literal) : Round :=
  round.update fun propagator =>
    { propagator with
      watches := propagator.watches.watch id partner replacement
      tally :=
        { propagator.tally with watchReplacements := propagator.tally.watchReplacements + 1 } }

theorem retire_eq_retired {round : Round} {id : ClauseId} {standing : Standing}
    (found : round.propagator.watches.standing id = .ok standing) :
    round.retire id = .ok (round.retired id standing) := by
  simp only [retire, found]
  rfl

theorem rewatch_eq_rewatched {round : Round} {id : ClauseId} {standing : Standing}
    {partner replacement : Literal} (found : round.propagator.watches.standing id = .ok standing)
    (different : replacement ≠ partner) :
    round.rewatch id partner replacement = .ok (round.rewatched id partner replacement) := by
  simp only [rewatch, if_neg (Ne.symm different), found]
  rfl

theorem learn_eq_enqueue {round : Round} {literal : Literal}
    (new : literal ∉ round.propagator.units) (free : -literal ∉ round.propagator.units) :
    round.learn literal = .ok (round.enqueue literal) := by
  rw [learn, if_neg (mt Propagator.isTrue_iff.mp new), if_neg (mt Propagator.isFalse_iff.mp free)]

/-- The round in which the partner of a clause has become a unit, and the clause is retired. -/
def forced (round : Round) (id : ClauseId) (standing : Standing) (partner : Literal) : Round :=
  ((round.note (.forces id partner)).retired id standing).enqueue partner

/-- The outcomes of a visit to a clause which has lost a watch. -/
inductive Visited (round : Round) (lost : Literal) (id : ClauseId) : Except Halt Round → Prop where
  | satisfied {standing : Standing} {partner literal : Literal} {clause : Clause}
      (sees : round.propagator.Sees lost id standing partner clause)
      (member : literal ∈ clause.literals) (isUnit : literal ∈ round.propagator.units) :
      Visited round lost id (.ok (round.countVisit.retired id standing))
  | moved {standing : Standing} {partner replacement : Literal} {clause : Clause}
      (sees : round.propagator.Sees lost id standing partner clause)
      (member : replacement ∈ clause.literals) (different : replacement ≠ partner)
      (notTrue : replacement ∉ round.propagator.units)
      (notFalse : -replacement ∉ round.propagator.units) :
      Visited round lost id (.ok (round.countVisit.rewatched id partner replacement))
  | forced {standing : Standing} {partner : Literal} {clause : Clause}
      (sees : round.propagator.Sees lost id standing partner clause)
      (member : partner ∈ clause.literals) (notTrue : partner ∉ round.propagator.units)
      (notFalse : -partner ∉ round.propagator.units)
      (othersFalse : ∀ literal ∈ clause.literals, literal ≠ partner →
        -literal ∈ round.propagator.units) :
      Visited round lost id (.ok (round.countVisit.forced id standing partner))
  | falsified {standing : Standing} {partner : Literal} {clause : Clause}
      (sees : round.propagator.Sees lost id standing partner clause)
      (member : partner ∈ clause.literals)
      (allFalse : ∀ literal ∈ clause.literals, -literal ∈ round.propagator.units) :
      Visited round lost id
        (.error ⟨.conflict (.falsifiedClause id partner), round.countVisit⟩)

theorem Visited.exists_watched {round : Round} {lost : Literal} {id : ClauseId}
    {outcome : Except Halt Round} (visited : Visited round lost id outcome) :
    ∃ first second, round.propagator.watches.standing id = .ok (.watched first second) := by
  have watched : ∀ {standing partner clause},
      round.propagator.Sees lost id standing partner clause →
        ∃ first second, round.propagator.watches.standing id = .ok (.watched first second) := by
    intro standing partner clause sees
    rcases Standing.partner_eq_ok_iff.mp sees.partner_eq with rfl | ⟨rfl, _⟩
    · exact ⟨lost, partner, sees.standing_eq⟩
    · exact ⟨partner, lost, sees.standing_eq⟩
  cases visited with
  | satisfied sees => exact watched sees
  | moved sees => exact watched sees
  | forced sees => exact watched sees
  | falsified sees => exact watched sees

theorem Visited.standing_of_ne {round next : Round} {lost : Literal} {id other : ClauseId}
    (visited : Visited round lost id (.ok next)) (different : other ≠ id) :
    next.propagator.watches.standing other = round.propagator.watches.standing other := by
  cases visited with
  | satisfied sees =>
      have standings := Watches.standing_retire (Watches.standing_lt sees.standing_eq)
      exact (standings _ other).trans (if_neg different)
  | moved sees =>
      have standings := Watches.standing_watch (Watches.standing_lt sees.standing_eq)
      exact (standings _ _ other).trans (if_neg different)
  | forced sees =>
      have standings := Watches.standing_retire (Watches.standing_lt sees.standing_eq)
      exact (standings _ other).trans (if_neg different)

/-- With coherent watches a visit to a remaining clause is one of the four. -/
theorem visited {round : Round} {lost : Literal} {id : ClauseId} {remaining : List ClauseId}
    (coherent : round.propagator.watches.Coherent round.propagator.formula lost (id :: remaining)) :
    Visited round lost id (round.visit lost id) := by
  rcases coherent.exists_of_remaining with ⟨standing, partner, clause, found, partnerFound, read⟩
  have sees : round.propagator.Sees lost id standing partner clause :=
    ⟨found, partnerFound, read⟩
  have partnerMem := coherent.partner_mem found partnerFound read
  have describes := round.propagator.judge_describes clause partner
  simp only [visit, sees.examine_eq]
  cases finding : round.propagator.judge clause partner with
  | satisfied =>
      rw [finding] at describes
      rcases describes with ⟨literal, member, isUnit⟩
      have retirement : round.countVisit.settle id .satisfied =
          .ok (round.countVisit.retired id standing) := retire_eq_retired found
      rw [retirement]
      rcases member with rfl | member
      · exact .satisfied sees partnerMem isUnit
      · exact .satisfied sees member isUnit
  | movable kept replacement =>
      rw [finding] at describes
      rcases describes with ⟨rfl, member, different, notTrue, notFalse⟩
      have move : round.countVisit.settle id (.movable kept replacement) =
          .ok (round.countVisit.rewatched id kept replacement) :=
        rewatch_eq_rewatched found different
      rw [move]
      exact .moved sees member different notTrue notFalse
  | forcing forced =>
      rw [finding] at describes
      rcases describes with ⟨rfl, notTrue, notFalse, othersFalse⟩
      have retirement : (round.countVisit.note (.forces id forced)).retire id =
          .ok ((round.countVisit.note (.forces id forced)).retired id standing) :=
        retire_eq_retired found
      have learnt : ((round.countVisit.note (.forces id forced)).retired id standing).learn forced =
          .ok (round.countVisit.forced id standing forced) := learn_eq_enqueue notTrue notFalse
      have force : round.countVisit.settle id (.forcing forced) =
          .ok (round.countVisit.forced id standing forced) := by
        simp only [settle, retirement]
        exact learnt
      rw [force]
      exact .forced sees partnerMem notTrue notFalse othersFalse
  | falsified last =>
      rw [finding] at describes
      rcases describes with ⟨rfl, lastFalse, othersFalse⟩
      refine .falsified sees partnerMem ?_
      intro literal member
      by_cases same : literal = last
      · rw [same]
        exact lastFalse
      · exact othersFalse literal member same

end Round
end UnitPropagation
