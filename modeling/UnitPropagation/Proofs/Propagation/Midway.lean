import UnitPropagation.Proofs.Propagation.Gain

namespace UnitPropagation

/-!
# Watches in the middle of a drain

An audit does not judge the clauses while units wait, so it says nothing about the points
of a drain.  There the watches are in order all the same, only that some clauses have lost
a watch for the moment.  A clause that waits for its visit is listed under its other watch
alone.  A clause that is watched and does not wait is listed under both of its watches and
nowhere else, and if one of them is false, its negation is still in the queue.  A clause
that is not watched is in no list.

That a watch which became false is noticed is the guard of the propagator, which holds at
every point.  It covers both watches if the clause does not open with a repetition.

A clause is visited only while it is watched, and only a visit changes its standing.  So a
retired clause stays retired, from each point of a drain to the later ones, to the end of
the call, and in all that follows.
-/

namespace Propagator

/-- What is asked of a clause that is watched by two literals and waits for no visit. -/
structure WatchedBy (propagator : Propagator) (id : ClauseId) (first second : Literal) : Prop where
  different : first ≠ second
  own : ∃ clause, propagator.formula.clause id = .ok clause ∧
    first ∈ clause.literals ∧ second ∈ clause.literals
  isListed_iff : ∀ literal,
    propagator.watches.isListed literal id = true ↔ literal = first ∨ literal = second
  false_waits : ∀ literal, literal = first ∨ literal = second → -literal ∈ propagator.units →
    -literal ∈ propagator.queue

/-- What is asked of a clause that waits for its visit, as it has lost a watch. -/
structure WaitsFor (propagator : Propagator) (id : ClauseId) (lost partner : Literal) : Prop where
  standing_eq : propagator.watches.standing id = .ok (.watched lost partner) ∨
    propagator.watches.standing id = .ok (.watched partner lost)
  different : partner ≠ lost
  isListed_iff : ∀ literal, propagator.watches.isListed literal id = true ↔ literal = partner

/-- What is asked of all watches at a point of a drain, where the `remaining` clauses have
lost a watch and wait for their visit. -/
structure InOrder (propagator : Propagator) (lost : Literal) (remaining : List ClauseId) : Prop where
  watched : ∀ id first second, id ∉ remaining →
    propagator.watches.standing id = .ok (.watched first second) →
      propagator.WatchedBy id first second
  waiting : ∀ id ∈ remaining, ∃ partner, propagator.WaitsFor id lost partner
  unlisted : ∀ id, propagator.watches.standing id = .ok .retired ∨
    propagator.watches.standing id = .ok .unit →
      ∀ literal, propagator.watches.isListed literal id = false
  unit_iff : ∀ id clause, propagator.formula.clause id = .ok clause →
    (propagator.watches.standing id = .ok .unit ↔ clause.isUnit = true)

namespace Guarded

variable {propagator : Propagator} {lost : Literal} {remaining : List ClauseId} {id : ClauseId}

theorem watchedBy (guarded : propagator.Guarded lost remaining)
    (apart : ∀ clause ∈ propagator.formula.toList, ¬clause.OpensTwice) {first second : Literal}
    (visited : id ∉ remaining)
    (found : propagator.watches.standing id = .ok (.watched first second)) :
    propagator.WatchedBy id first second := by
  have coherent := guarded.coherent
  rcases coherent.exists_clause found with ⟨clause, read⟩
  rcases guarded.attended_both found read (apart _ (Formula.mem_toList read)) with
    ⟨different, atFirst, atSecond⟩
  have waits : ∀ {literal}, propagator.Attended lost remaining id literal →
      -literal ∈ propagator.units → -literal ∈ propagator.queue :=
    fun attended isFalse => (attended isFalse).resolve_right fun remains => visited remains.2
  constructor
  case different => exact different
  case own => exact ⟨clause, read, coherent.watched_mem read found⟩
  case isListed_iff =>
    intro literal
    rw [coherent.isListed_iff, Watches.isWatch_iff_of_watched found]
    exact and_iff_left fun remains => visited remains.2
  case false_waits =>
    rintro literal (rfl | rfl)
    · exact waits atFirst
    · exact waits atSecond

theorem exists_waitsFor (guarded : propagator.Guarded lost remaining)
    (apart : ∀ clause ∈ propagator.formula.toList, ¬clause.OpensTwice) (waits : id ∈ remaining) :
    ∃ partner, propagator.WaitsFor id lost partner := by
  have coherent := guarded.coherent
  rcases coherent.isWatch_lost id waits with ⟨standing, found, isWatched⟩
  rcases Standing.exists_partner id isWatched with ⟨partner, partnerFound⟩
  rcases coherent.exists_clause found with ⟨clause, read⟩
  have watches : (propagator.watches.standing id = .ok (.watched lost partner) ∨
      propagator.watches.standing id = .ok (.watched partner lost)) ∧ partner ≠ lost := by
    rcases Standing.partner_eq_ok_iff.mp partnerFound with rfl | ⟨rfl, different⟩
    · have notTwice := apart _ (Formula.mem_toList read)
      exact ⟨Or.inl found, Ne.symm (guarded.attended_both found read notTwice).1⟩
    · exact ⟨Or.inr found, different⟩
  refine ⟨partner, watches.1, watches.2, ?_⟩
  intro literal
  rw [coherent.isListed_iff, Watches.isWatch_iff found,
    Standing.isWatchedBy_of_partner partnerFound]
  constructor
  · rintro ⟨isLost | isPartner, free⟩
    · exact absurd ⟨isLost, waits⟩ free
    · exact isPartner
  · rintro rfl
    exact ⟨Or.inr rfl, fun remains => watches.2 remains.1⟩

/-- A guarded propagator has its watches in order, if no clause opens with a repetition. -/
theorem inOrder (guarded : propagator.Guarded lost remaining)
    (apart : ∀ clause ∈ propagator.formula.toList, ¬clause.OpensTwice) :
    propagator.InOrder lost remaining where
  watched := fun _ _ _ visited found => guarded.watchedBy apart visited found
  waiting := fun _ waits => guarded.exists_waitsFor apart waits
  unlisted := by
    intro id idle literal
    apply Bool.eq_false_iff.mpr
    intro listed
    have isWatch := ((guarded.coherent.isListed_iff literal id).mp listed).1
    rcases idle with found | found
    · cases (Watches.isWatch_iff found literal).mp isWatch
    · cases (Watches.isWatch_iff found literal).mp isWatch
  unit_iff := fun _ _ read => guarded.coherent.unit_iff read

end Guarded

/-! ## Retired clauses stay retired -/

/-- Whether the clauses that were retired in an earlier propagator still are. -/
def KeepsRetired (later earlier : Propagator) : Prop :=
  ∀ id, earlier.watches.standing id = .ok .retired → later.watches.standing id = .ok .retired

theorem KeepsRetired.refl (propagator : Propagator) : propagator.KeepsRetired propagator :=
  fun _ isRetired => isRetired

theorem KeepsRetired.trans {first second third : Propagator} (later : third.KeepsRetired second)
    (earlier : second.KeepsRetired first) : third.KeepsRetired first :=
  fun id isRetired => later id (earlier id isRetired)

end Propagator

/-- What was retired at a point of a drain is retired at all later ones. -/
theorem Later.keepsRetired {start round next : Round} {lost final : Literal}
    {remaining ids : List ClauseId} (guarded : ∀ lost, start.propagator.Guarded lost [])
    (point : Point start round lost remaining)
    (later : Later round lost remaining next final ids) :
    next.propagator.KeepsRetired round.propagator := by
  induction later with
  | same => exact .refl _
  | popped _ _ ih => exact ih
  | visited before visit ih =>
      have visited := Round.visited ((point.later before).guarded guarded).coherent
      rw [visit] at visited
      exact visited.retired_mono ih

namespace Propagator

variable {propagator : Propagator} {formula : Formula} {given : Literal → Prop}
  {literals : List Literal} {learnt : Round}

theorem keepsRetired_of_learnAll
    (learning : (Round.start propagator).learnAll literals = .ok learnt) :
    learnt.propagator.KeepsRetired propagator :=
  (Round.learnAll_preserves (motive := fun round => round.propagator.KeepsRetired propagator)
    literals (.start propagator) (fun _ _ _ before => before) (.refl propagator)).1 learning

/-- What was retired at a point of the drain is retired after the call, however it ends. -/
theorem keepsRetired_of_point (guarded : ∀ lost, propagator.Guarded lost [])
    (learning : (Round.start propagator).learnAll literals = .ok learnt) {round : Round}
    {lost : Literal} {remaining : List ClauseId} (point : Point learnt round lost remaining) :
    (propagator.derive literals).propagator.KeepsRetired round.propagator := by
  have learntGuarded := (guarded_of_learnAll guarded literals).1 learning
  rw [derive, learning]
  rcases point.drain_cases learntGuarded with
    ⟨last, final, drained, later, _⟩ | ⟨before, final, id, ids, partner, drained, later, _⟩
  · have ended : (Except.ok learnt >>= Round.drain) = .ok last := drained
    rw [ended]
    exact later.keepsRetired learntGuarded point
  · have ended : (Except.ok learnt >>= Round.drain) =
        .error ⟨.conflict (.falsifiedClause id partner), before.countVisit⟩ := drained
    have kept := later.keepsRetired learntGuarded point
    rw [ended]
    exact kept

/-- What is asked of the drain of a call that begins with the round `learnt`.  Its watches
are in order at every point, and what is retired before the call or at a point of the drain
is retired at every later point and after the call. -/
structure DrainsInOrder (before : Propagator) (learnt : Round) (after : Propagator) : Prop where
  inOrder : ∀ round lost remaining, Point learnt round lost remaining →
    round.propagator.InOrder lost remaining
  keeps_before : ∀ round lost remaining, Point learnt round lost remaining →
    round.propagator.KeepsRetired before
  keeps_earlier : ∀ round lost remaining, Point learnt round lost remaining →
    ∀ next final ids, Later round lost remaining next final ids →
      next.propagator.KeepsRetired round.propagator
  after_keeps : ∀ round lost remaining, Point learnt round lost remaining →
    after.KeepsRetired round.propagator

theorem Settled.drainsInOrder (settled : propagator.Settled formula given)
    (apart : ∀ clause ∈ formula.toList, ¬clause.OpensTwice)
    (learning : (Round.start propagator).learnAll literals = .ok learnt) :
    propagator.DrainsInOrder learnt (propagator.derive literals).propagator := by
  have start := (settled.learnAll literals).1 learning
  have guarded := (guarded_of_learnAll settled.guarded literals).1 learning
  constructor
  case inOrder =>
    intro round lost remaining point
    apply (point.guarded guarded).inOrder
    rw [(point.follows guarded start.2).1]
    exact apart
  case keeps_before =>
    intro round lost remaining point
    rcases point.exists_later with ⟨first, later⟩
    exact (later.keepsRetired guarded (.begun first)).trans (keepsRetired_of_learnAll learning)
  case keeps_earlier =>
    intro round lost remaining point next final ids later
    exact later.keepsRetired guarded point
  case after_keeps =>
    intro round lost remaining point
    exact keepsRetired_of_point settled.guarded learning point

end Propagator

/-- What is retired in a branch stays so in all calls that come later on its line. -/
theorem Branch.Reached.keepsRetired_assumeAll {formula : Formula} (line : List (List Literal)) :
    ∀ {branch : Branch}, branch.Reached formula →
      (branch.assumeAll line).propagator.KeepsRetired branch.propagator := by
  induction line with
  | nil =>
      intro branch _
      exact .refl _
  | cons literals line ih =>
      intro branch reached
      have later := ih (reached.assume literals)
      rcases reached.history.settled_or_broken with settled | broken
      · have kept := (settled.derive_gains literals).1.retired_mono
        rw [← (settled.assume_eq_derive literals).1] at kept
        exact later.trans kept
      · rw [Branch.propagator_assumeAll broken.inconsistent]
        exact .refl _

/-- The watches are in order at every point of every drain, if no clause repeats a literal:
in the drain with which a propagator is made and in those of all calls on consistent
propagators of a session, also where they end in a conflict.  A clause that is retired at
some point, or between two calls, is retired from then on. -/
theorem watches_in_order_within_drains {strict : Bool} {clauses : List (List Literal)}
    {formula : Formula} (formulaMade : Formula.ofLists strict clauses = .ok formula)
    (nodup : ∀ clause ∈ clauses, clause.Nodup) :
    (∀ learnt, (Round.start (.fresh formula)).learnAll formula.unitLiterals = .ok learnt →
      (Propagator.fresh formula).DrainsInOrder learnt
        ((Propagator.fresh formula).derive formula.unitLiterals).propagator) ∧
    ∀ propagator, (Propagator.ofLists strict clauses).result = .ok propagator →
      ∀ calls, ∀ branch ∈ ((Session.start propagator).run calls).branches,
        (branch.propagator.inconsistent = false → ∀ literals learnt,
          (Round.start branch.propagator).learnAll literals = .ok learnt →
            branch.propagator.DrainsInOrder learnt
              (branch.propagator.assume literals).propagator) ∧
        ∀ line, (branch.assumeAll line).propagator.KeepsRetired branch.propagator := by
  have lists : formula.lists = clauses := Formula.literals_of_ofLists formulaMade
  have apart := Formula.not_opensTwice_of_nodup (lists ▸ nodup)
  refine ⟨fun learnt learning => (Propagator.settled_fresh formula).drainsInOrder apart learning, ?_⟩
  intro propagator made calls branch member
  rw [Propagator.result_ofLists formulaMade] at made
  have reached := Session.reached made calls branch member
  refine ⟨?_, fun line => reached.keepsRetired_assumeAll line⟩
  intro consistent literals learnt learning
  have settled := reached.settled_of_consistent consistent
  rw [(settled.assume_eq_derive literals).1]
  exact settled.drainsInOrder apart learning

/-- On a clone, the first literal takes the watch of two clauses.  After the first of them
was visited it is listed under its new watch, and the second one is listed only under the
watch that it has not lost. -/
theorem clone_in_order_between_visits :
    let first : Literal := ⟨1, by decide, by decide⟩
    let second : Literal := ⟨2, by decide, by decide⟩
    let third : Literal := ⟨3, by decide, by decide⟩
    let clauses := [[-first, second, third], [second, -first]]
    (∀ clause ∈ clauses, clause.Nodup) ∧
    ∃ formula, Formula.ofLists true clauses = .ok formula ∧
      ∃ propagator, (Propagator.ofLists true clauses).result = .ok propagator ∧
        ∃ branch ∈ ((Session.start propagator).run [.clone 0]).branches,
          branch.propagator.inconsistent = false ∧
          ∃ learnt, (Round.start branch.propagator).learnAll [first] = .ok learnt ∧
            ∃ round, Point learnt round (-first) [1] ∧
              round.propagator.WatchedBy 0 second third ∧
              round.propagator.WaitsFor 1 (-first) second := by
  intro first second third clauses
  have nodup : ∀ clause ∈ clauses, clause.Nodup := by decide
  refine ⟨nodup, ?_⟩
  have walked : (Propagator.ofLists true clauses).result.toOption.any (fun propagator =>
      !propagator.inconsistent &&
        ((Round.start propagator).learnAll [first]).toOption.any fun learnt =>
          decide (learnt.propagator.queue = [first] ∧
            (learnt.propagator.watches.take (-first)).1 = [0, 1]) &&
          (((learnt.dequeue first []).dropWatchers (-first)).visit (-first) 0).toOption.any
            fun round => decide (round.propagator.watches.standings =
              ⟨#[.watched second third, .watched second (-first)]⟩)) = true := by
    decide +kernel
  rcases Except.exists_ok_of_any walked with ⟨propagator, made, walked⟩
  simp only [Bool.and_eq_true, Bool.not_eq_true'] at walked
  rcases walked with ⟨consistent, walked⟩
  rcases Except.exists_ok_of_any walked with ⟨learnt, learning, walked⟩
  simp only [Bool.and_eq_true, decide_eq_true_eq] at walked
  rcases walked with ⟨⟨queue, taken⟩, walked⟩
  rcases Except.exists_ok_of_any walked with ⟨round, visit, standings⟩
  rw [decide_eq_true_eq] at standings
  have begun : Point learnt learnt default [] := .begun default
  have popped := begun.popped queue
  rw [taken] at popped
  have point := popped.visited visit
  rcases Propagator.exists_formula_of_made made with ⟨formula, formulaMade, _⟩
  have clone : Branch.made propagator ∈ ((Session.start propagator).run [.clone 0]).branches :=
    List.mem_cons_of_mem _ List.mem_cons_self
  have drains := ((watches_in_order_within_drains formulaMade nodup).2 propagator made _ _ clone).1
    consistent [first] learnt learning
  have inOrder := drains.inOrder _ _ _ point
  have moved : round.propagator.watches.standing 0 = .ok (.watched second third) := by
    rw [Watches.standing, standings]
    rfl
  have unvisited : round.propagator.watches.standing 1 = .ok (.watched second (-first)) := by
    rw [Watches.standing, standings]
    rfl
  rcases inOrder.waiting 1 List.mem_cons_self with ⟨partner, waits⟩
  have isPartner : partner = second := by
    rcases waits.standing_eq with found | found
    · have same := Except.ok.inj (unvisited.symm.trans found)
      exact absurd (Standing.watched.inj same).1 (by decide)
    · have same := Except.ok.inj (unvisited.symm.trans found)
      exact (Standing.watched.inj same).1.symm
  refine ⟨formula, formulaMade, propagator, made, _, clone, consistent, learnt, learning, round,
    point, ?_, isPartner ▸ waits⟩
  exact inOrder.watched 0 second third (by decide) moved

end UnitPropagation
