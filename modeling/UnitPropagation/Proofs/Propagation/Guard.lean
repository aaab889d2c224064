import UnitPropagation.Proofs.Propagation.Point
import UnitPropagation.Proofs.Propagation.Visit

namespace UnitPropagation

/-!
# Guarded propagators

A watch is *attended* if its falsehood cannot go unnoticed: when the literal is
false, its negation waits in the queue, or the clause waits for the visit on behalf
of this literal.  In a guarded propagator every watched clause has an attended
watch.  This is enough to notice that a clause is falsified.

To force literals as well, both watches have to be attended, and they have to be
different.  A clause that opens with the same literal twice is watched by it twice
at first, and then keeps a watch which is false for good.  For all other clauses
both watches stay attended.  The two conditions are therefore stated side by side,
and hold at every point of a drain without any assumption on the clauses.
-/

/-- Whether the first two literals of a clause are the same, so that both watches begin as one. -/
def Clause.OpensTwice (clause : Clause) : Prop :=
  clause.rest.head? = some clause.first

theorem Clause.not_opensTwice_of_nodup {clause : Clause} (nodup : clause.literals.Nodup) :
    ¬clause.OpensTwice := by
  intro same
  have member : clause.first ∈ clause.rest := List.mem_of_mem_head? same
  exact (List.nodup_cons.mp nodup).1 member

/-- The first watches of a clause which does not open with a repetition are different. -/
theorem Standing.initial_ne_of_not_opensTwice {clause : Clause} {first second : Literal}
    (apart : ¬clause.OpensTwice) (initial : Standing.initial clause = .watched first second) :
    first ≠ second := by
  rcases clause with ⟨opening, _ | ⟨next, rest⟩⟩
  · cases initial
  · cases initial
    intro same
    exact apart (congrArg some same.symm)

namespace Propagator

def Satisfies (propagator : Propagator) (clause : Clause) : Prop :=
  ∃ literal ∈ clause.literals, literal ∈ propagator.units

/-- Whether the falsehood of a watch of the clause is still going to be noticed. -/
def Attended (propagator : Propagator) (lost : Literal) (remaining : List ClauseId)
    (id : ClauseId) (literal : Literal) : Prop :=
  -literal ∈ propagator.units →
    -literal ∈ propagator.queue ∨ (literal = lost ∧ id ∈ remaining)

/-- What holds at every point of a drain, with the clauses that remain to be visited
because they have lost a watch. -/
structure Guarded (propagator : Propagator) (lost : Literal) (remaining : List ClauseId) :
    Prop where
  coherent : propagator.watches.Coherent propagator.formula lost remaining
  units_consistent : ∀ literal ∈ propagator.units, -literal ∉ propagator.units
  queue_units : ∀ literal ∈ propagator.queue, literal ∈ propagator.units
  queue_nodup : propagator.queue.Nodup
  retired_satisfied : ∀ {id clause}, propagator.watches.standing id = .ok .retired →
    propagator.formula.clause id = .ok clause → propagator.Satisfies clause
  attended_either : ∀ {id first second},
    propagator.watches.standing id = .ok (.watched first second) →
      propagator.Attended lost remaining id first ∨ propagator.Attended lost remaining id second
  attended_both : ∀ {id first second clause},
    propagator.watches.standing id = .ok (.watched first second) →
      propagator.formula.clause id = .ok clause → ¬clause.OpensTwice →
        first ≠ second ∧ propagator.Attended lost remaining id first ∧
          propagator.Attended lost remaining id second

theorem attended_nil {propagator : Propagator} {lost : Literal} {id : ClauseId}
    {literal : Literal} : propagator.Attended lost [] id literal ↔
      (-literal ∈ propagator.units → -literal ∈ propagator.queue) := by
  simp [Attended]

theorem attended_of_not_false {propagator : Propagator} {lost literal : Literal}
    {remaining : List ClauseId} {id : ClauseId} (notFalse : -literal ∉ propagator.units) :
    propagator.Attended lost remaining id literal :=
  fun isFalse => absurd isFalse notFalse

theorem guarded_fresh (formula : Formula) (lost : Literal) :
    (fresh formula).Guarded lost [] where
  coherent := Watches.coherent_ofFormula formula lost
  units_consistent := by simp [fresh]
  queue_units := by simp [fresh]
  queue_nodup := List.nodup_nil
  retired_satisfied := by
    intro id clause found _
    rcases Watches.standing_ofFormula.mp found with ⟨other, _, isRetired⟩
    exact absurd isRetired (Standing.initial_ne_retired other)
  attended_either := by
    intro id first second _
    exact Or.inl (attended_of_not_false (by simp [fresh]))
  attended_both := by
    intro id first second clause found read apart
    rcases Watches.standing_ofFormula.mp found with ⟨other, otherRead, initial⟩
    cases otherRead.symm.trans read
    exact ⟨Standing.initial_ne_of_not_opensTwice apart initial,
      attended_of_not_false (by simp [fresh]), attended_of_not_false (by simp [fresh])⟩

namespace Guarded

variable {propagator : Propagator} {lost : Literal} {remaining : List ClauseId}

theorem of_nil (guarded : propagator.Guarded lost []) (other : Literal) :
    propagator.Guarded other [] :=
  { guarded with
    coherent := guarded.coherent.of_nil other
    attended_either := by
      intro id first second found
      simpa only [attended_nil] using guarded.attended_either found
    attended_both := by
      intro id first second clause found read apart
      simpa only [attended_nil] using guarded.attended_both found read apart }

/-- Where nothing waits, a watched clause has a watch which is not false. -/
theorem not_false_either (guarded : propagator.Guarded lost []) (queue : propagator.queue = [])
    {id : ClauseId} {first second : Literal}
    (found : propagator.watches.standing id = .ok (.watched first second)) :
    -first ∉ propagator.units ∨ -second ∉ propagator.units := by
  simpa only [attended_nil, queue, List.not_mem_nil, imp_false] using guarded.attended_either found

/-- Where nothing waits, the watches of a clause which does not open with a
repetition are different and not false. -/
theorem not_false_both (guarded : propagator.Guarded lost []) (queue : propagator.queue = [])
    {id : ClauseId} {first second : Literal} {clause : Clause}
    (found : propagator.watches.standing id = .ok (.watched first second))
    (read : propagator.formula.clause id = .ok clause) (apart : ¬clause.OpensTwice) :
    first ≠ second ∧ -first ∉ propagator.units ∧ -second ∉ propagator.units := by
  simpa only [attended_nil, queue, List.not_mem_nil, imp_false] using
    guarded.attended_both found read apart

end Guarded
end Propagator

/-! ## What keeps a propagator guarded -/

namespace Round

variable {round : Round} {lost : Literal} {id : ClauseId} {remaining : List ClauseId}

theorem mem_units_enqueue {literal other : Literal} :
    other ∈ (round.enqueue literal).propagator.units ↔
      other = literal ∨ other ∈ round.propagator.units := by
  change other ∈ round.propagator.units.insert literal ↔ _
  rw [Std.TreeSet.mem_insert, Std.LawfulEqCmp.compare_eq_iff_eq]
  exact or_congr eq_comm Iff.rfl

/-- A new unit waits in the queue, so that no watch loses its attendance. -/
theorem attended_enqueue {literal : Literal} (unit : Literal)
    (attended : round.propagator.Attended lost remaining id literal) :
    (round.enqueue unit).propagator.Attended lost remaining id literal := by
  intro isFalse
  rcases mem_units_enqueue.mp isFalse with isNew | isOld
  · exact Or.inl (List.mem_append_right _ (List.mem_singleton.mpr isNew))
  · exact (attended isOld).imp_left (List.mem_append_left _)

theorem guarded_enqueue (guarded : round.propagator.Guarded lost remaining) {unit : Literal}
    (new : unit ∉ round.propagator.units) (free : -unit ∉ round.propagator.units) :
    (round.enqueue unit).propagator.Guarded lost remaining where
  coherent := guarded.coherent
  units_consistent := by
    intro literal isUnit negated
    rcases mem_units_enqueue.mp isUnit with rfl | isOld
    · rcases mem_units_enqueue.mp negated with same | negatedOld
      · exact Literal.neg_ne_self literal same
      · exact free negatedOld
    · rcases mem_units_enqueue.mp negated with same | negatedOld
      · rw [← same, Literal.neg_neg] at free
        exact free isOld
      · exact guarded.units_consistent literal isOld negatedOld
  queue_units := by
    intro literal waits
    rcases List.mem_append.mp waits with isOld | isNew
    · exact mem_units_enqueue.mpr (Or.inr (guarded.queue_units literal isOld))
    · exact mem_units_enqueue.mpr (Or.inl (List.mem_singleton.mp isNew))
  queue_nodup := by
    apply List.nodup_append.mpr
    refine ⟨guarded.queue_nodup, List.pairwise_singleton _ _, ?_⟩
    intro literal waits other isNew same
    cases List.mem_singleton.mp isNew
    exact new (guarded.queue_units _ (same ▸ waits))
  retired_satisfied := by
    intro id clause found read
    rcases guarded.retired_satisfied found read with ⟨literal, member, isUnit⟩
    exact ⟨literal, member, mem_units_enqueue.mpr (Or.inr isUnit)⟩
  attended_either := by
    intro id first second found
    exact (guarded.attended_either found).imp (attended_enqueue unit) (attended_enqueue unit)
  attended_both := by
    intro id first second clause found read apart
    rcases guarded.attended_both found read apart with ⟨different, atFirst, atSecond⟩
    exact ⟨different, attended_enqueue unit atFirst, attended_enqueue unit atSecond⟩

/-- The oldest unit leaves the queue, and exactly the clauses watched by its negation
begin to wait for their visit. -/
theorem guarded_pop (guarded : round.propagator.Guarded lost []) {unit : Literal}
    {waiting : List Literal} (queue : round.propagator.queue = unit :: waiting) :
    ((round.dequeue unit waiting).dropWatchers (-unit)).propagator.Guarded (-unit)
      (round.propagator.watches.take (-unit)).1 := by
  have attended : ∀ {id literal}, round.propagator.watches.IsWatch id literal →
      round.propagator.Attended lost [] id literal →
      ((round.dequeue unit waiting).dropWatchers (-unit)).propagator.Attended (-unit)
        (round.propagator.watches.take (-unit)).1 id literal := by
    intro id literal isWatch before isFalse
    have waited := Propagator.attended_nil.mp before isFalse
    rw [queue] at waited
    rcases List.mem_cons.mp waited with same | later
    · refine Or.inr ⟨by rw [← same, Literal.neg_neg], ?_⟩
      rw [Watches.mem_take, guarded.coherent.isListed_iff, ← same, Literal.neg_neg]
      exact ⟨isWatch, by simp⟩
    · exact Or.inl later
  constructor
  case coherent => exact guarded.coherent.take (-unit)
  case units_consistent => exact guarded.units_consistent
  case queue_units =>
    intro literal waits
    apply guarded.queue_units
    rw [queue]
    exact List.mem_cons_of_mem _ waits
  case queue_nodup =>
    have nodup := guarded.queue_nodup
    rw [queue] at nodup
    exact (List.nodup_cons.mp nodup).2
  case retired_satisfied => exact guarded.retired_satisfied
  case attended_either =>
    intro id first second found
    exact (guarded.attended_either found).imp
      (attended ((Watches.isWatch_iff_of_watched found first).mpr (Or.inl rfl)))
      (attended ((Watches.isWatch_iff_of_watched found second).mpr (Or.inr rfl)))
  case attended_both =>
    intro id first second clause found read apart
    rcases guarded.attended_both found read apart with ⟨different, atFirst, atSecond⟩
    exact ⟨different,
      attended ((Watches.isWatch_iff_of_watched found first).mpr (Or.inl rfl)) atFirst,
      attended ((Watches.isWatch_iff_of_watched found second).mpr (Or.inr rfl)) atSecond⟩

/-- A clause which does not remain has to be attended without its visit. -/
theorem attended_of_ne {other : ClauseId} {literal : Literal} (different : other ≠ id)
    (attended : round.propagator.Attended lost (id :: remaining) other literal) :
    round.propagator.Attended lost remaining other literal := by
  intro isFalse
  rcases attended isFalse with waits | ⟨isLost, remains⟩
  · exact Or.inl waits
  · exact Or.inr ⟨isLost, List.mem_of_ne_of_mem different remains⟩

/-- The first remaining clause gets another standing, under which it has to be satisfied
or attended without a visit.  Nothing changes for the other clauses. -/
theorem guarded_settle (guarded : round.propagator.Guarded lost (id :: remaining))
    {changed : Watches} (after : Standing)
    (standings : ∀ other, changed.standing other =
      if other = id then .ok after else round.propagator.watches.standing other)
    (coherent : changed.Coherent round.propagator.formula lost remaining)
    (satisfied : ∀ {clause}, after = .retired →
      round.propagator.formula.clause id = .ok clause → round.propagator.Satisfies clause)
    (either : ∀ {first second}, after = .watched first second →
      round.propagator.Attended lost remaining id first ∨
        round.propagator.Attended lost remaining id second)
    (both : ∀ {first second clause}, after = .watched first second →
      round.propagator.formula.clause id = .ok clause → ¬clause.OpensTwice →
        first ≠ second ∧ round.propagator.Attended lost remaining id first ∧
          round.propagator.Attended lost remaining id second) :
    ({ round.propagator with watches := changed } : Propagator).Guarded lost remaining := by
  have split : ∀ {other standing}, changed.standing other = .ok standing →
      (other = id ∧ after = standing) ∨
        (other ≠ id ∧ round.propagator.watches.standing other = .ok standing) := by
    intro other standing found
    rw [standings other] at found
    split at found
    · rename_i here
      cases found
      exact Or.inl ⟨here, rfl⟩
    · rename_i elsewhere
      exact Or.inr ⟨elsewhere, found⟩
  constructor
  case coherent => exact coherent
  case units_consistent => exact guarded.units_consistent
  case queue_units => exact guarded.queue_units
  case queue_nodup => exact guarded.queue_nodup
  case retired_satisfied =>
    intro other clause found read
    rcases split found with ⟨rfl, isRetired⟩ | ⟨_, before⟩
    · exact satisfied isRetired read
    · exact guarded.retired_satisfied before read
  case attended_either =>
    intro other first second found
    rcases split found with ⟨rfl, isWatched⟩ | ⟨elsewhere, before⟩
    · exact either isWatched
    · exact (guarded.attended_either before).imp (attended_of_ne elsewhere)
        (attended_of_ne elsewhere)
  case attended_both =>
    intro other first second clause found read apart
    rcases split found with ⟨rfl, isWatched⟩ | ⟨elsewhere, before⟩
    · exact both isWatched read apart
    · rcases guarded.attended_both before read apart with ⟨distinct, atFirst, atSecond⟩
      exact ⟨distinct, attended_of_ne elsewhere atFirst, attended_of_ne elsewhere atSecond⟩

theorem guarded_retired (guarded : round.propagator.Guarded lost (id :: remaining))
    {standing : Standing} {clause : Clause}
    (found : round.propagator.watches.standing id = .ok standing)
    (read : round.propagator.formula.clause id = .ok clause)
    (satisfied : round.propagator.Satisfies clause) :
    (round.retired id standing).propagator.Guarded lost remaining := by
  have settled := guarded_settle guarded .retired
    (Watches.standing_retire (Watches.standing_lt found) standing) (guarded.coherent.retire found)
    (by
      intro other _ otherRead
      cases read.symm.trans otherRead
      exact satisfied)
    Standing.noConfusion Standing.noConfusion
  exact { settled with }

/-- The partner waited for no visit, because it is not the lost watch. -/
theorem attended_partner (guarded : round.propagator.Guarded lost (id :: remaining))
    {standing : Standing} {partner : Literal} {clause : Clause}
    (sees : round.propagator.Sees lost id standing partner clause) (apart : ¬clause.OpensTwice) :
    round.propagator.Attended lost remaining id partner := by
  intro isFalse
  rcases Standing.partner_eq_ok_iff.mp sees.partner_eq with rfl | ⟨rfl, notLost⟩
  · rcases guarded.attended_both sees.standing_eq sees.clause_eq apart with ⟨distinct, _, attended⟩
    rcases attended isFalse with waits | ⟨isLost, _⟩
    · exact Or.inl waits
    · exact absurd isLost.symm distinct
  · rcases guarded.attended_both sees.standing_eq sees.clause_eq apart with ⟨_, attended, _⟩
    rcases attended isFalse with waits | ⟨isLost, _⟩
    · exact Or.inl waits
    · exact absurd isLost notLost

/-- The replacement is attended, as it is not false.  The partner is attended if the
two watches were different before. -/
theorem guarded_rewatched (guarded : round.propagator.Guarded lost (id :: remaining))
    {standing : Standing} {partner replacement : Literal} {clause : Clause}
    (sees : round.propagator.Sees lost id standing partner clause)
    (member : replacement ∈ clause.literals) (different : replacement ≠ partner)
    (notFalse : -replacement ∉ round.propagator.units) :
    (round.rewatched id partner replacement).propagator.Guarded lost remaining := by
  have settled := guarded_settle guarded (.watched partner replacement)
    (Watches.standing_watch (Watches.standing_lt sees.standing_eq) partner replacement)
    (guarded.coherent.watch sees.standing_eq sees.partner_eq sees.clause_eq member)
    Standing.noConfusion
    (by
      intro first second same
      cases same
      exact Or.inr (Propagator.attended_of_not_false notFalse))
    (by
      intro first second other same read apart
      cases same
      cases sees.clause_eq.symm.trans read
      exact ⟨Ne.symm different, attended_partner guarded sees apart,
        Propagator.attended_of_not_false notFalse⟩)
  exact { settled with }

/-- A visit takes the clause out of those that remain and keeps the propagator guarded. -/
theorem Visited.guarded (guarded : round.propagator.Guarded lost (id :: remaining)) {next : Round}
    (visited : Visited round lost id (.ok next)) : next.propagator.Guarded lost remaining := by
  have counted : round.countVisit.propagator.Guarded lost (id :: remaining) := { guarded with }
  cases visited with
  | satisfied sees member isUnit =>
      exact guarded_retired counted sees.standing_eq sees.clause_eq ⟨_, member, isUnit⟩
  | moved sees member different _ notFalse =>
      exact guarded_rewatched counted ⟨sees.standing_eq, sees.partner_eq, sees.clause_eq⟩ member
        different notFalse
  | @forced standing partner clause sees member notTrue notFalse _ =>
      -- The clause is retired before its partner is a unit, but the order makes no difference.
      have enqueued := guarded_enqueue counted notTrue notFalse
      have found : (round.countVisit.enqueue partner).propagator.watches.standing id = .ok standing :=
        sees.standing_eq
      have retired := guarded_retired enqueued found sees.clause_eq
        ⟨partner, member, mem_units_enqueue.mpr (Or.inl rfl)⟩
      exact { retired with }

end Round

theorem Point.guarded {start round : Round} {lost : Literal} {remaining : List ClauseId}
    (initially : ∀ lost, start.propagator.Guarded lost [])
    (point : Point start round lost remaining) : round.propagator.Guarded lost remaining := by
  induction point with
  | begun lost => exact initially lost
  | popped _ queue ih => exact Round.guarded_pop ih queue
  | visited _ visit ih =>
      have visited := Round.visited ih.coherent
      rw [visit] at visited
      exact visited.guarded ih

/-- From each of its points a guarded drain either comes to an end where nothing waits, or it
is cut short by the visit to a clause whose literals are all false. -/
theorem Point.drain_cases {start round : Round} {lost : Literal} {remaining : List ClauseId}
    (initially : ∀ lost, start.propagator.Guarded lost [])
    (point : Point start round lost remaining) :
    (∃ last final, start.drain = .ok last ∧ Later round lost remaining last final [] ∧
      last.propagator.queue = []) ∨
    ∃ before final id ids partner,
      start.drain = .error ⟨.conflict (.falsifiedClause id partner), before.countVisit⟩ ∧
      Later round lost remaining before final (id :: ids) ∧
      Round.Visited before final id
        (.error ⟨.conflict (.falsifiedClause id partner), before.countVisit⟩) := by
  cases drained : start.drain with
  | ok last =>
      rcases point.later_of_drain_ok drained with ⟨final, later, queue⟩
      exact Or.inl ⟨last, final, rfl, later, queue⟩
  | error halt =>
      rcases point.later_of_drain_error drained with ⟨before, final, id, ids, later, visit⟩
      have visited := Round.visited ((point.later later).guarded initially).coherent
      rw [visit] at visited
      cases visited with
      | @falsified standing partner clause sees member allFalse =>
          exact Or.inr ⟨before, final, id, ids, partner, rfl, later, .falsified sees member allFalse⟩

/-- What popping a unit and visiting a clause preserve holds at every point of a drain
that is guarded at its start. -/
theorem Point.preserves {motive : Round → Literal → List ClauseId → Prop} {start : Round}
    (initially : ∀ lost, start.propagator.Guarded lost []) (begun : ∀ lost, motive start lost [])
    (popped : ∀ {round lost unit waiting}, round.propagator.Guarded lost [] → motive round lost [] →
      round.propagator.queue = unit :: waiting →
        motive ((round.dequeue unit waiting).dropWatchers (-unit)) (-unit)
          (round.propagator.watches.take (-unit)).1)
    (visited : ∀ {round next lost id remaining}, round.propagator.Guarded lost (id :: remaining) →
      motive round lost (id :: remaining) → Round.Visited round lost id (.ok next) →
        motive next lost remaining)
    {round : Round} {lost : Literal} {remaining : List ClauseId}
    (point : Point start round lost remaining) : motive round lost remaining := by
  induction point with
  | begun lost => exact begun lost
  | popped before queue ih => exact popped (before.guarded initially) ih queue
  | visited before visit ih =>
      have guarded := before.guarded initially
      have outcome := Round.visited guarded.coherent
      rw [visit] at outcome
      exact visited guarded ih outcome

end UnitPropagation
