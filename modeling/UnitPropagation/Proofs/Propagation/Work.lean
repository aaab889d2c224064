import Mathlib.Algebra.Order.BigOperators.Group.List
import Mathlib.Algebra.Order.Ring.Nat
import UnitPropagation.Proofs.Propagation.Tally
import UnitPropagation.Proofs.Propagation.Turns

namespace UnitPropagation

/-!
# How much work there is

A watch is given up only when it is false, and it stays false.  So a watched clause cannot
have lost more watches than it has false literals which do not watch it, and two literals
are always left to watch it.  A clause of `n` literals is retired at most once, and after at
most `n - 2` new watches.  Each visit does one of the two, except for the last visit to a
clause that is found falsified.  This clause is not retired, and so the visit takes the
place of its retirement.

The clauses must not repeat a literal, since the two watches have to be different.
-/

namespace Standing

/-- How many watches a clause of this standing may have lost: the literals which are false
and do not watch it, or all literals but two if the clause is retired. -/
def givenUp (isFalse : Literal → Bool) (clause : Clause) : Standing → Nat
  | .watched first second =>
    clause.literals.countP fun literal =>
      literal != first && literal != second && isFalse literal
  | .unit => 0
  | .retired => clause.size - 2

/-- How often a clause of this standing was retired. -/
def closed : Standing → Nat
  | .retired => 1
  | .watched _ _ | .unit => 0

variable {isFalse later : Literal → Bool} {clause : Clause} {first second : Literal}

theorem givenUp_mono (grows : ∀ literal, isFalse literal = true → later literal = true)
    (standing : Standing) : standing.givenUp isFalse clause ≤ standing.givenUp later clause := by
  cases standing with
  | watched first second =>
      apply List.countP_mono_left
      intro literal _ counted
      simp only [Bool.and_eq_true] at counted ⊢
      exact ⟨counted.1, grows literal counted.2⟩
  | unit => exact Nat.le_refl _
  | retired => exact Nat.le_refl _

theorem givenUp_watched_le (different : first ≠ second) (firstMem : first ∈ clause.literals)
    (secondMem : second ∈ clause.literals) :
    (watched first second).givenUp isFalse clause ≤ clause.size - 2 := by
  have secondLeft : second ∈ clause.literals.erase first :=
    (List.mem_erase_of_ne (Ne.symm different)).mpr secondMem
  have arranged : clause.literals.Perm
      (first :: second :: (clause.literals.erase first).erase second) :=
    (List.perm_cons_erase firstMem).trans ((List.perm_cons_erase secondLeft).cons first)
  have size : clause.size = ((clause.literals.erase first).erase second).length + 2 :=
    arranged.length_eq
  rw [givenUp, arranged.countP_eq, List.countP_cons_of_neg (by simp),
    List.countP_cons_of_neg (by simp), size]
  exact List.countP_le_length

theorem givenUp_watched_comm :
    (watched first second).givenUp isFalse clause = (watched second first).givenUp isFalse clause := by
  simp only [givenUp, Bool.and_comm (_ != first)]

/-- Exchanging a false watch for a literal which is not false gives up one more. -/
theorem givenUp_lt_of_moved {lost partner replacement : Literal} (lostMem : lost ∈ clause.literals)
    (apart : lost ≠ partner) (lostFalse : isFalse lost = true)
    (notFalse : isFalse replacement = false) :
    (watched lost partner).givenUp isFalse clause <
      (watched partner replacement).givenUp isFalse clause := by
  have different : lost ≠ replacement := by
    rintro rfl
    rw [lostFalse] at notFalse
    cases notFalse
  have arranged := List.perm_cons_erase lostMem
  rw [givenUp, givenUp, arranged.countP_eq, arranged.countP_eq,
    List.countP_cons_of_neg (by simp), List.countP_cons_of_pos (by simp [apart, different, lostFalse])]
  apply Nat.lt_succ_of_le
  apply List.countP_mono_left
  intro literal _ counted
  simp only [Bool.and_eq_true, bne_iff_ne] at counted ⊢
  refine ⟨⟨counted.1.2, ?_⟩, counted.2⟩
  rintro rfl
  rw [counted.2] at notFalse
  cases notFalse

end Standing

namespace Formula

variable {formula : Formula}

theorem mem_entries_iff {id : ClauseId} {clause : Clause} :
    (id, clause) ∈ formula.entries ↔ formula.clause id = .ok clause :=
  Table.mem_entries.trans Table.get_eq_ok_iff.symm

/-- Whether no clause repeats a literal. -/
def IsDistinct (formula : Formula) : Prop :=
  ∀ list ∈ formula.lists, list.Nodup

/-- A sum over the numbered clauses does not depend on the numbers. -/
theorem sum_map_entries (limit : List Literal → Nat) :
    (formula.entries.map fun entry => limit entry.2.literals).sum =
      (formula.lists.map limit).sum := by
  have rows : formula.entries.map Prod.snd = formula.toList := by
    rw [entries, Table.entries, List.map_map]
    exact List.zipIdx_map_fst 0 _
  rw [lists, ← rows, List.map_map, List.map_map]
  rfl

end Formula

namespace Propagator

variable {propagator : Propagator} {id : ClauseId} {clause : Clause}
  {weight : Clause → Standing → Nat}

/-! ## Sums over the clauses -/

/-- The weight of a numbered clause, which depends on its standing. -/
def weightAt (propagator : Propagator) (weight : Clause → Standing → Nat)
    (entry : ClauseId × Clause) : Nat :=
  match propagator.watches.standing entry.1 with
  | .ok standing => weight entry.2 standing
  | .error _ => 0

def weigh (propagator : Propagator) (weight : Clause → Standing → Nat) : Nat :=
  (propagator.formula.entries.map (propagator.weightAt weight)).sum

theorem weightAt_eq {standing : Standing} (found : propagator.watches.standing id = .ok standing) :
    propagator.weightAt weight (id, clause) = weight clause standing := by
  rw [weightAt, found]

theorem weigh_mono {heavier : Clause → Standing → Nat}
    (le : ∀ clause standing, weight clause standing ≤ heavier clause standing) :
    propagator.weigh weight ≤ propagator.weigh heavier := by
  apply List.sum_le_sum
  rintro ⟨id, clause⟩ _
  cases found : propagator.watches.standing id with
  | ok standing =>
      rw [weightAt_eq found, weightAt_eq found]
      exact le clause standing
  | error fault => simp [weightAt, found]

section Change

variable {before after : Standing} {changed : Watches}
  (found : propagator.watches.standing id = .ok before)
  (read : propagator.formula.clause id = .ok clause)
  (standings : ∀ other, changed.standing other =
    if other = id then .ok after else propagator.watches.standing other)

include found read standings

/-- No weight falls if only one clause gets another standing, and this weighs at least as much. -/
theorem weightAt_le_of_standing (le : weight clause before ≤ weight clause after) :
    ∀ entry ∈ propagator.formula.entries, propagator.weightAt weight entry ≤
      ({ propagator with watches := changed } : Propagator).weightAt weight entry := by
  rintro ⟨other, otherClause⟩ member
  have present := standings other
  by_cases here : other = id
  · subst here
    cases read.symm.trans (Formula.mem_entries_iff.mp member)
    rw [if_pos rfl] at present
    rw [weightAt_eq found, weightAt_eq present]
    exact le
  · rw [if_neg here] at present
    simp only [weightAt, present, Nat.le_refl]

theorem weigh_le_of_standing (le : weight clause before ≤ weight clause after) :
    propagator.weigh weight ≤
      ({ propagator with watches := changed } : Propagator).weigh weight :=
  List.sum_le_sum (weightAt_le_of_standing found read standings le)

theorem weigh_lt_of_standing (lt : weight clause before < weight clause after) :
    propagator.weigh weight <
      ({ propagator with watches := changed } : Propagator).weigh weight := by
  apply List.sum_lt_sum _ _
    (weightAt_le_of_standing found read standings (Nat.le_of_lt lt))
  have present := standings id
  rw [if_pos rfl] at present
  refine ⟨(id, clause), Formula.mem_entries_iff.mpr read, ?_⟩
  rw [weightAt_eq found, weightAt_eq present]
  exact lt

end Change

section Limit

variable {limit : List Literal → Nat}
  (le : ∀ {id clause standing}, propagator.formula.clause id = .ok clause →
    propagator.watches.standing id = .ok standing → weight clause standing ≤ limit clause.literals)

include le

theorem weightAt_le_of_limit : ∀ entry ∈ propagator.formula.entries,
    propagator.weightAt weight entry ≤ limit entry.2.literals := by
  rintro ⟨id, clause⟩ member
  cases found : propagator.watches.standing id with
  | ok standing =>
      rw [weightAt_eq found]
      exact le (Formula.mem_entries_iff.mp member) found
  | error fault => simp [weightAt, found]

theorem weigh_le_of_limit : propagator.weigh weight ≤ (propagator.formula.lists.map limit).sum := by
  rw [← Formula.sum_map_entries]
  exact List.sum_le_sum (weightAt_le_of_limit le)

theorem weigh_lt_of_limit {standing : Standing} (read : propagator.formula.clause id = .ok clause)
    (found : propagator.watches.standing id = .ok standing)
    (lt : weight clause standing < limit clause.literals) :
    propagator.weigh weight < (propagator.formula.lists.map limit).sum := by
  rw [← Formula.sum_map_entries]
  apply List.sum_lt_sum _ _ (weightAt_le_of_limit le)
  refine ⟨(id, clause), Formula.mem_entries_iff.mpr read, ?_⟩
  rw [weightAt_eq found]
  exact lt

end Limit

/-- Whether the new watches are accounted for by the watches which were given up, and the
retirements by the retired clauses. -/
structure Spends (propagator : Propagator) : Prop where
  replacements_le : propagator.tally.watchReplacements ≤
    propagator.weigh (Standing.givenUp propagator.isFalse)
  retired_le : propagator.tally.retiredClauses ≤ propagator.weigh fun _ => Standing.closed

theorem spends_fresh (formula : Formula) : (fresh formula).Spends where
  replacements_le := Nat.zero_le _
  retired_le := Nat.zero_le _

variable {lost partner first second : Literal} {remaining : List ClauseId}

/-- The watches of a clause without repetitions are two different literals of it. -/
theorem Guarded.watches_differ (guarded : propagator.Guarded lost remaining)
    (distinct : propagator.formula.IsDistinct) (read : propagator.formula.clause id = .ok clause)
    (found : propagator.watches.standing id = .ok (.watched first second)) :
    first ≠ second ∧ first ∈ clause.literals ∧ second ∈ clause.literals := by
  have apart := Clause.not_opensTwice_of_nodup (distinct _ (Formula.literals_mem_lists read))
  exact ⟨(guarded.attended_both found read apart).1, guarded.coherent.watched_mem read found⟩

/-- No clause has lost more watches than it has literals beside two. -/
theorem Guarded.givenUp_le (guarded : propagator.Guarded lost remaining)
    (distinct : propagator.formula.IsDistinct) {standing : Standing}
    (read : propagator.formula.clause id = .ok clause)
    (found : propagator.watches.standing id = .ok standing) :
    standing.givenUp propagator.isFalse clause ≤ clause.literals.length - 2 := by
  cases standing with
  | watched first second =>
      rcases guarded.watches_differ distinct read found with ⟨different, firstMem, secondMem⟩
      exact Standing.givenUp_watched_le different firstMem secondMem
  | unit => exact Nat.zero_le _
  | retired => exact Nat.le_refl _

/-- Only a clause of two literals or more has another standing than that of a unit clause. -/
theorem Guarded.two_le_length (guarded : propagator.Guarded lost remaining) {standing : Standing}
    (read : propagator.formula.clause id = .ok clause)
    (found : propagator.watches.standing id = .ok standing) (notUnit : standing ≠ .unit) :
    2 ≤ clause.literals.length := by
  rcases clause with ⟨opening, _ | ⟨next, rest⟩⟩
  · cases found.symm.trans ((guarded.coherent.unit_iff read).mpr rfl)
    exact absurd rfl notUnit
  · simp [Clause.literals]

theorem Guarded.closed_le (guarded : propagator.Guarded lost remaining) {standing : Standing}
    (read : propagator.formula.clause id = .ok clause)
    (found : propagator.watches.standing id = .ok standing) :
    standing.closed ≤ if 2 ≤ clause.literals.length then 1 else 0 := by
  cases standing with
  | watched first second => exact Nat.zero_le _
  | unit => exact Nat.zero_le _
  | retired => rw [if_pos (guarded.two_le_length read found Standing.noConfusion), Standing.closed]

/-- Whether the counts stay below what the lengths of the clauses allow, where `lost` visits
had no outcome but a conflict. -/
structure WithinBudget (propagator : Propagator) (lost : Nat) : Prop where
  replacements_le : propagator.tally.watchReplacements ≤
    (propagator.formula.lists.map fun list => list.length - 2).sum
  retired_le : propagator.tally.retiredClauses + lost ≤
    (propagator.formula.lists.map fun list => if 2 ≤ list.length then 1 else 0).sum

theorem Spends.withinBudget (spends : propagator.Spends) (distinct : propagator.formula.IsDistinct)
    (guarded : propagator.Guarded lost remaining) : propagator.WithinBudget 0 where
  replacements_le :=
    spends.replacements_le.trans (weigh_le_of_limit (guarded.givenUp_le distinct))
  retired_le := spends.retired_le.trans (weigh_le_of_limit guarded.closed_le)

/-- As long as a clause is watched, one retirement is left. -/
theorem Spends.withinBudget_of_watched (spends : propagator.Spends)
    (distinct : propagator.formula.IsDistinct) (guarded : propagator.Guarded lost remaining)
    (read : propagator.formula.clause id = .ok clause)
    (found : propagator.watches.standing id = .ok (.watched first second)) :
    propagator.WithinBudget 1 where
  replacements_le := (spends.withinBudget distinct guarded).replacements_le
  retired_le := by
    refine Nat.succ_le_of_lt (Nat.lt_of_le_of_lt spends.retired_le ?_)
    apply weigh_lt_of_limit guarded.closed_le read found
    rw [if_pos (guarded.two_le_length read found Standing.noConfusion)]
    exact Nat.zero_lt_one

end Propagator

/-! ## What the steps of a drain spend -/

namespace Round

variable {round : Round} {lost partner : Literal} {id : ClauseId} {remaining : List ClauseId}
  {standing : Standing} {clause : Clause}

/-- A new unit makes a literal false, and no false one becomes another. -/
theorem spends_enqueue (spends : round.propagator.Spends) (literal : Literal) :
    (round.enqueue literal).propagator.Spends where
  replacements_le := by
    refine spends.replacements_le.trans (Propagator.weigh_mono ?_)
    intro clause standing
    apply Standing.givenUp_mono
    intro other isFalse
    rw [Propagator.isFalse_iff] at isFalse ⊢
    exact mem_units_enqueue.mpr (Or.inr isFalse)
  retired_le := spends.retired_le

theorem spends_retired (spends : round.propagator.Spends)
    (distinct : round.propagator.formula.IsDistinct)
    (guarded : round.propagator.Guarded lost (id :: remaining))
    (sees : round.propagator.Sees lost id standing partner clause) :
    (round.retired id standing).propagator.Spends := by
  have standings := Watches.standing_retire (Watches.standing_lt sees.standing_eq) standing
  have notClosed : standing.closed = 0 := by
    rcases Standing.partner_eq_ok_iff.mp sees.partner_eq with rfl | ⟨rfl, _⟩ <;> rfl
  constructor
  case replacements_le =>
    refine spends.replacements_le.trans ?_
    exact Propagator.weigh_le_of_standing sees.standing_eq sees.clause_eq standings
      (guarded.givenUp_le distinct sees.clause_eq sees.standing_eq)
  case retired_le =>
    refine Nat.succ_le_of_lt (Nat.lt_of_le_of_lt spends.retired_le ?_)
    apply Propagator.weigh_lt_of_standing sees.standing_eq sees.clause_eq standings
    rw [notClosed]
    exact Nat.zero_lt_one

/-- A new watch takes the place of one that is given up. -/
theorem spends_rewatched (spends : round.propagator.Spends)
    (distinct : round.propagator.formula.IsDistinct)
    (guarded : round.propagator.Guarded lost (id :: remaining))
    (sees : round.propagator.Sees lost id standing partner clause)
    (lostFalse : -lost ∈ round.propagator.units) {replacement : Literal}
    (notFalse : -replacement ∉ round.propagator.units) :
    (round.rewatched id partner replacement).propagator.Spends := by
  have standings := Watches.standing_watch (Watches.standing_lt sees.standing_eq) partner replacement
  have more : standing.givenUp round.propagator.isFalse clause <
      (Standing.watched partner replacement).givenUp round.propagator.isFalse clause := by
    rcases Standing.partner_eq_ok_iff.mp sees.partner_eq with rfl | ⟨rfl, _⟩
    · rcases guarded.watches_differ distinct sees.clause_eq sees.standing_eq with ⟨apart, lostMem, _⟩
      exact Standing.givenUp_lt_of_moved lostMem apart (Propagator.isFalse_iff.mpr lostFalse)
        (Propagator.isFalse_eq_false_iff.mpr notFalse)
    · rcases guarded.watches_differ distinct sees.clause_eq sees.standing_eq with ⟨apart, _, lostMem⟩
      rw [Standing.givenUp_watched_comm]
      exact Standing.givenUp_lt_of_moved lostMem (Ne.symm apart)
        (Propagator.isFalse_iff.mpr lostFalse) (Propagator.isFalse_eq_false_iff.mpr notFalse)
  constructor
  case replacements_le =>
    refine Nat.succ_le_of_lt (Nat.lt_of_le_of_lt spends.replacements_le ?_)
    exact Propagator.weigh_lt_of_standing sees.standing_eq sees.clause_eq standings more
  case retired_le =>
    refine spends.retired_le.trans ?_
    apply Propagator.weigh_le_of_standing sees.standing_eq sees.clause_eq standings
    rcases Standing.partner_eq_ok_iff.mp sees.partner_eq with rfl | ⟨rfl, _⟩ <;> exact Nat.le_refl _

/-- Every visit that goes on spends what it counts. -/
theorem Visited.spends (spends : round.propagator.Spends)
    (distinct : round.propagator.formula.IsDistinct)
    (guarded : round.propagator.Guarded lost (id :: remaining))
    (lostFalse : -lost ∈ round.propagator.units) {next : Round}
    (visited : Visited round lost id (.ok next)) : next.propagator.Spends := by
  -- The visit itself and its events have no influence on what is spent.
  have counted : round.countVisit.propagator.Spends :=
    ⟨spends.replacements_le, spends.retired_le⟩
  have countedGuarded : round.countVisit.propagator.Guarded lost (id :: remaining) :=
    { guarded with }
  cases visited with
  | satisfied sees =>
      exact spends_retired counted distinct countedGuarded
        ⟨sees.standing_eq, sees.partner_eq, sees.clause_eq⟩
  | moved sees _ _ _ notFalse =>
      exact spends_rewatched counted distinct countedGuarded
        ⟨sees.standing_eq, sees.partner_eq, sees.clause_eq⟩ lostFalse notFalse
  | @forced _ partner _ sees =>
      have noted : (round.countVisit.note (.forces id partner)).propagator.Spends := counted
      have retired := spends_retired noted distinct countedGuarded
        ⟨sees.standing_eq, sees.partner_eq, sees.clause_eq⟩
      exact spends_enqueue retired partner

end Round

/-- The literal whose clauses are visited is false, and what the calls spent is accounted for. -/
structure Round.Economic (round : Round) (lost : Literal) (remaining : List ClauseId) : Prop where
  distinct : round.propagator.formula.IsDistinct
  lost_false : remaining ≠ [] → -lost ∈ round.propagator.units
  spends : round.propagator.Spends

theorem Round.Visited.economic {round next : Round} {lost : Literal} {id : ClauseId}
    {remaining : List ClauseId} (economic : round.Economic lost (id :: remaining))
    (guarded : round.propagator.Guarded lost (id :: remaining))
    (visited : Visited round lost id (.ok next)) : next.Economic lost remaining := by
  have extended := (Extends.refl round).visited visited
  have lostFalse := economic.lost_false (List.cons_ne_nil _ _)
  constructor
  case distinct =>
    rw [extended.formula_eq]
    exact economic.distinct
  case lost_false => exact fun _ => extended.units_mono _ lostFalse
  case spends => exact visited.spends economic.spends economic.distinct guarded lostFalse

/-- When a unit is popped, its negation becomes the lost literal. -/
theorem Round.Economic.pop {round : Round} {lost unit : Literal} {waiting : List Literal}
    (economic : round.Economic lost []) (guarded : round.propagator.Guarded lost [])
    (queue : round.propagator.queue = unit :: waiting) :
    ((round.dequeue unit waiting).dropWatchers (-unit)).Economic (-unit)
      (round.propagator.watches.take (-unit)).1 where
  distinct := economic.distinct
  lost_false := by
    intro _
    rw [Literal.neg_neg]
    exact guarded.queue_units unit (queue ▸ List.mem_cons_self)
  spends := { economic.spends with }

namespace Propagator

variable {propagator : Propagator} {formula : Formula} {given : Literal → Prop}

/-- What a call leaves behind, given the reason of its failure: the budget is kept, and if the
call ended well, everything that was spent is accounted for. -/
structure KeepsBudget (propagator : Propagator) (stop : Option Stop) : Prop where
  distinct : propagator.formula.IsDistinct
  spends : stop = none → propagator.Spends
  withinBudget : propagator.WithinBudget (Stop.lostVisits stop)

theorem keepsBudget_fresh (distinct : formula.IsDistinct) :
    (fresh formula).KeepsBudget none where
  distinct := distinct
  spends := fun _ => spends_fresh formula
  withinBudget := (spends_fresh formula).withinBudget distinct (guarded_fresh formula default)

theorem KeepsBudget.derive (before : propagator.KeepsBudget none)
    (settled : propagator.Settled formula given) (literals : List Literal) :
    (propagator.derive literals).propagator.KeepsBudget (propagator.derive literals).stop? := by
  have outcome := derive_preserves (motive := Round.Economic) settled.guarded literals
    (fun _ => ⟨before.distinct, fun some => absurd rfl some, before.spends rfl⟩)
    (fun _ holds lost => ⟨(holds lost).distinct, fun some => absurd rfl some,
      Round.spends_enqueue (holds lost).spends _⟩)
    (fun guarded holds queue => holds.pop guarded queue)
    (fun guarded holds visited => visited.economic holds guarded)
  generalize propagator.derive literals = answer at outcome ⊢
  cases outcome with
  | settled holds guarded =>
      exact ⟨holds.distinct, fun _ => holds.spends, holds.spends.withinBudget holds.distinct guarded⟩
  | refused holds guarded =>
      have within := holds.spends.withinBudget holds.distinct guarded
      exact ⟨holds.distinct, nofun, { within with }⟩
  | falsified holds guarded visited =>
      rcases visited.exists_watched with ⟨first, second, found⟩
      cases visited with
      | falsified sees =>
          have within :=
            holds.spends.withinBudget_of_watched holds.distinct guarded sees.clause_eq found
          exact ⟨holds.distinct, nofun, { within with }⟩

theorem KeepsBudget.assume (before : propagator.KeepsBudget none)
    (settled : propagator.Settled formula given) (literals : List Literal) :
    (propagator.assume literals).propagator.KeepsBudget (propagator.assume literals).stop? := by
  rcases settled.assume_eq_derive literals with ⟨after, result⟩
  rw [after, Answer.stop?, result]
  exact before.derive settled literals

theorem keepsBudget_of_ofFormula (distinct : formula.IsDistinct)
    (made : (ofFormula formula).result = .ok propagator) : propagator.KeepsBudget none := by
  have keeps := (keepsBudget_fresh distinct).derive (settled_fresh formula) formula.unitLiterals
  rcases derive_of_ofFormula made with ⟨rfl, ended⟩
  rw [ended] at keeps
  exact keeps

end Propagator

/-! ## Bounds for whole lines -/

/-- What the budget allows, summed over the clauses of two literals or more. -/
theorem sums_over_long (clauses : List (List Literal)) :
    (clauses.map fun clause => clause.length - 2).sum =
        ((clauses.filter (2 ≤ ·.length)).map fun clause => clause.length - 2).sum ∧
      (clauses.map fun clause => if 2 ≤ clause.length then 1 else 0).sum =
        (clauses.filter (2 ≤ ·.length)).length ∧
      ((clauses.filter (2 ≤ ·.length)).map fun clause => clause.length - 1).sum =
        ((clauses.filter (2 ≤ ·.length)).map fun clause => clause.length - 2).sum +
          (clauses.filter (2 ≤ ·.length)).length := by
  induction clauses with
  | nil => simp
  | cons clause clauses ih =>
      rcases ih with ⟨replacements, retirements, visits⟩
      by_cases long : 2 ≤ clause.length
      · simp [long, replacements, retirements, visits]
        omega
      · simp [long, replacements, retirements, visits]
        omega

/-- Together with the sums of the tally, the budget bounds the visits as well. -/
theorem Propagator.WithinBudget.bounds {propagator : Propagator} {lost : Nat}
    (within : propagator.WithinBudget lost) (sums : propagator.AddsUp lost) :
    let long := propagator.formula.lists.filter (2 ≤ ·.length)
    propagator.tally.watchReplacements ≤ (long.map (·.length - 2)).sum ∧
      propagator.tally.watchVisits ≤ (long.map (·.length - 1)).sum ∧
      propagator.tally.retiredClauses ≤ long.length := by
  intro long
  rcases sums_over_long propagator.formula.lists with ⟨replacements, retirements, together⟩
  have replaced := replacements ▸ within.replacements_le
  have retired := retirements ▸ within.retired_le
  refine ⟨replaced, ?_, Nat.le_of_add_right_le retired⟩
  calc propagator.tally.watchVisits
      = propagator.tally.watchReplacements + (propagator.tally.retiredClauses + lost) := by
        rw [sums.visits, Nat.add_assoc]
    _ ≤ (long.map (·.length - 2)).sum + long.length := Nat.add_le_add replaced retired
    _ = (long.map (·.length - 1)).sum := together.symm

/-- A line of calls on a propagator that was just made keeps the budget. -/
theorem Branch.withinBudget_assumeAll {propagator : Propagator} {formula : Formula}
    (made : (Propagator.ofFormula formula).result = .ok propagator)
    (distinct : formula.IsDistinct) (line : List (List Literal)) :
    ((Branch.made propagator).assumeAll line).propagator.WithinBudget
      (Stop.lostVisits (propagator.failure? line)) := by
  have keeps := Propagator.keepsBudget_of_ofFormula distinct made
  refine ((Branch.reached_made made).preserves_assumeAll (motive := Propagator.KeepsBudget) ?_
    line rfl keeps).withinBudget
  intro propagator given settled before literals
  exact before.assume settled literals

/-- Draining comes to an end after a bounded number of turns.  On the whole line of a
propagator, including the creation, no literal is taken from the queue twice or together
with its negation.  If no clause repeats a literal, the visits, the new watches and the
retirements of the whole line are bounded by sums over the clauses of two literals or more,
whatever is assumed and in whatever batches. -/
theorem work_is_bounded {strict : Bool} {clauses : List (List Literal)} {propagator : Propagator}
    (made : (Propagator.ofLists strict clauses).result = .ok propagator) (calls : List Call)
    {slot : Nat} {branch : Branch}
    (found : ((Session.start propagator).run calls).branches[slot]? = some branch) :
    (∀ literals learnt, (Round.start branch.propagator).learnAll literals = .ok learnt →
      learnt.Terminates) ∧
    (∃ line, (Session.lines calls)[slot]? = some line ∧
      let taken := Event.taken ((Propagator.ofLists strict clauses).trace ++ propagator.events line)
      taken.Nodup ∧ ∀ literal ∈ taken, -literal ∉ taken) ∧
    ((∀ clause ∈ clauses, clause.Nodup) →
      let long := clauses.filter (2 ≤ ·.length)
      branch.propagator.tally.watchReplacements ≤ (long.map (·.length - 2)).sum ∧
      branch.propagator.tally.watchVisits ≤ (long.map (·.length - 1)).sum ∧
      branch.propagator.tally.retiredClauses ≤ long.length) := by
  rcases Propagator.exists_formula_of_made made with ⟨formula, ofLists, ofFormula⟩
  have reached := Session.reached ofFormula calls branch (List.mem_of_getElem? found)
  have fresh := Branch.reached_made ofFormula
  rw [Session.getElem?_branches_run ofFormula, Option.map_eq_some_iff] at found
  rcases found with ⟨line, read, rfl⟩
  refine ⟨fun _ learnt _ => learnt.terminates, ⟨line, read, ?_⟩, ?_⟩
  · have trace : (Propagator.ofLists strict clauses).trace = (Propagator.ofFormula formula).trace := by
      rw [Propagator.ofLists, ofLists]
    have records := fresh.records_assumeAll line (Propagator.records_of_ofFormula ofFormula)
    rw [← Event.taken_append, ← trace] at records
    rcases reached.guarded with ⟨_, _, guarded⟩
    exact records.taken_once guarded.units_consistent
  · intro distinct
    have lists : formula.lists = clauses := Formula.literals_of_ofLists ofLists
    have allDistinct : formula.IsDistinct := by
      rw [Formula.IsDistinct, lists]
      exact distinct
    have within := Branch.withinBudget_assumeAll ofFormula allDistinct line
    have sums := fresh.addsUp_assumeAll line rfl (Propagator.addsUp_of_ofFormula ofFormula)
    have bounds := within.bounds sums
    rw [reached.formula_eq, lists] at bounds
    exact bounds

/-- A clone that fails at a falsified clause has used up all visits which the lengths of the
clauses allow, and the one possible new watch. -/
theorem failed_clone_uses_up_visits :
    let first : Literal := ⟨1, by decide, by decide⟩
    let second : Literal := ⟨2, by decide, by decide⟩
    let third : Literal := ⟨3, by decide, by decide⟩
    let clauses := [[-first, second], [-first, -second, third], [-second, -third]]
    let calls : List Call := [.clone 0, .assumeOne 1 first]
    (∀ clause ∈ clauses, clause.Nodup) ∧
    ∃ propagator, (Propagator.ofLists false clauses).result = .ok propagator ∧
      ∃ branch, ((Session.start propagator).run calls).branches[1]? = some branch ∧
        (Event.taken ((Propagator.ofLists false clauses).trace ++
          propagator.events [[first]])).Nodup ∧
        branch.propagator.tally.watchReplacements = 1 ∧
        branch.propagator.tally.watchVisits = 4 ∧
        branch.propagator.tally.retiredClauses ≤ 3 := by
  intro first second third clauses calls
  have distinct : ∀ clause ∈ clauses, clause.Nodup := by decide
  refine ⟨distinct, ?_⟩
  have worked : (Propagator.ofLists false clauses).result.toOption.any (fun propagator =>
      let tally := (propagator.assumeOne first).propagator.tally
      decide (1 ≤ tally.watchReplacements ∧ 4 ≤ tally.watchVisits)) = true := by
    decide +kernel
  rcases Except.exists_ok_of_any worked with ⟨propagator, made, worked⟩
  have enough := of_decide_eq_true worked
  have clone : ((Session.start propagator).run calls).branches[1]? =
      some ((Branch.made propagator).assumeOne first) := rfl
  rcases work_is_bounded made calls clone with ⟨_, ⟨line, read, takenOnce, _⟩, bounded⟩
  have onlyCall : [[first]] = line := Option.some.inj read
  subst onlyCall
  rcases bounded distinct with ⟨replacements, visits, retirements⟩
  exact ⟨propagator, made, _, clone, takenOnce, Nat.le_antisymm replacements enough.1,
    Nat.le_antisymm visits enough.2, retirements⟩

end UnitPropagation
