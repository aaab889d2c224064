import UnitPropagation.Proofs.Propagation.Line

namespace UnitPropagation

/-!
# The tally adds up

The counts of a propagator are bound to its state.  As many literals were enqueued as
there are units, and all of them were processed but those that still wait.  As many
clauses were retired as have this standing.  Every visit ends in a new watch or in the
retirement of the clause, except for the one visit that finds a clause falsified.

No clause is retired twice and no literal is enqueued twice, which is why the sums
rest on the watches: a clause is visited only while it is watched.
-/

namespace Propagator

variable {propagator : Propagator}

/-- Whether the counts fit the state, where `lost` visits had no outcome but a conflict. -/
structure AddsUp (propagator : Propagator) (lost : Nat) : Prop where
  enqueued : propagator.tally.enqueuedUnits = propagator.units.size
  processed : propagator.tally.processedUnits + propagator.queue.length =
    propagator.tally.enqueuedUnits
  retired : propagator.tally.retiredClauses =
    propagator.watches.standings.toList.count .retired
  visits : propagator.tally.watchVisits =
    propagator.tally.watchReplacements + propagator.tally.retiredClauses + lost
  inconsistencies : propagator.tally.inconsistencies = if propagator.inconsistent then 1 else 0

theorem addsUp_fresh (formula : Formula) : (fresh formula).AddsUp 0 where
  enqueued := rfl
  processed := rfl
  retired := by
    refine (List.count_eq_zero.mpr ?_).symm
    intro member
    rcases List.mem_iff_getElem?.mp member with ⟨id, found⟩
    have standing : (fresh formula).watches.standing id = .ok .retired := by
      rw [Watches.standing, Table.get_eq_ok_iff, ← Array.getElem?_toList]
      exact found
    rcases Watches.standing_ofFormula.mp standing with ⟨clause, _, isRetired⟩
    exact Standing.initial_ne_retired clause isRetired
  visits := rfl
  inconsistencies := rfl

theorem AddsUp.contradicted {lost : Nat} (sums : propagator.AddsUp lost)
    (consistent : propagator.inconsistent = false) : propagator.contradicted.AddsUp lost where
  enqueued := sums.enqueued
  processed := sums.processed
  retired := sums.retired
  visits := sums.visits
  inconsistencies := by
    have before := sums.inconsistencies
    rw [consistent] at before
    simpa [Propagator.contradicted] using before

end Propagator

namespace Round

variable {round : Round}

theorem addsUp_enqueue {lost : Nat} (sums : round.propagator.AddsUp lost) {literal : Literal}
    (new : literal ∉ round.propagator.units) :
    (round.enqueue literal).propagator.AddsUp lost where
  enqueued := by
    have absent : ¬round.propagator.units.contains literal = true := mt Propagator.isTrue_iff.mp new
    simp only [enqueue, Std.TreeSet.size_insert, if_neg absent, sums.enqueued]
  processed := by
    have before := sums.processed
    simp only [enqueue, List.length_append, List.length_singleton]
    omega
  retired := sums.retired
  visits := sums.visits
  inconsistencies := sums.inconsistencies

theorem addsUp_pop (sums : round.propagator.AddsUp 0) {unit : Literal} {waiting : List Literal}
    (queue : round.propagator.queue = unit :: waiting) :
    ((round.dequeue unit waiting).dropWatchers (-unit)).propagator.AddsUp 0 where
  enqueued := sums.enqueued
  processed := by
    have before := sums.processed
    rw [queue, List.length_cons] at before
    simp only [dropWatchers, dequeue, update, note]
    omega
  retired := sums.retired
  visits := sums.visits
  inconsistencies := sums.inconsistencies

/-- A visited clause is watched, so that its retirement makes one more retired clause. -/
theorem addsUp_retired (sums : round.propagator.AddsUp 0) {id : ClauseId} {lost partner : Literal}
    {standing : Standing} {clause : Clause}
    (sees : round.propagator.Sees lost id standing partner clause) :
    (round.countVisit.retired id standing).propagator.AddsUp 0 where
  enqueued := sums.enqueued
  processed := sums.processed
  retired := by
    have counted := Table.count_put sees.standing_eq .retired .retired
    have watched : standing ≠ .retired := by
      rintro rfl
      cases sees.partner_eq
    rw [if_neg watched, if_pos rfl, Nat.add_zero] at counted
    have standings : (round.countVisit.retired id standing).propagator.watches.standings =
        round.propagator.watches.standings.put id .retired := Watches.standings_retire _ _ _
    rw [standings, counted]
    exact congrArg (· + 1) sums.retired
  visits := congrArg (· + 1) sums.visits
  inconsistencies := sums.inconsistencies

/-- A clause that gets a new watch was not retired and is not retired then. -/
theorem addsUp_rewatched (sums : round.propagator.AddsUp 0) {id : ClauseId}
    {lost partner replacement : Literal} {standing : Standing} {clause : Clause}
    (sees : round.propagator.Sees lost id standing partner clause) :
    (round.countVisit.rewatched id partner replacement).propagator.AddsUp 0 where
  enqueued := sums.enqueued
  processed := sums.processed
  retired := by
    have counted := Table.count_put sees.standing_eq (.watched partner replacement) .retired
    have watched : standing ≠ .retired := by
      rintro rfl
      cases sees.partner_eq
    rw [if_neg watched, if_neg Standing.noConfusion, Nat.add_zero, Nat.add_zero] at counted
    have standings :
        (round.countVisit.rewatched id partner replacement).propagator.watches.standings =
          round.propagator.watches.standings.put id (.watched partner replacement) := rfl
    rw [standings, counted]
    exact sums.retired
  visits := by
    have before := sums.visits
    simp only [rewatched, countVisit, update]
    omega
  inconsistencies := sums.inconsistencies

/-- Every visit that goes on has one outcome which is counted. -/
theorem Visited.addsUp (sums : round.propagator.AddsUp 0) {next : Round} {lost : Literal}
    {id : ClauseId} (visited : Visited round lost id (.ok next)) : next.propagator.AddsUp 0 := by
  cases visited with
  | satisfied sees => exact addsUp_retired sums sees
  | moved sees => exact addsUp_rewatched sums sees
  | @forced standing partner clause sees _ notTrue =>
      -- The event of forcing the literal has no influence on the propagator.
      have seen : (round.note (.forces id partner)).propagator.Sees lost id standing partner clause :=
        sees
      exact addsUp_enqueue (addsUp_retired sums seen) notTrue

/-- The visit that finds a falsified clause is the one without an outcome. -/
theorem addsUp_countVisit (sums : round.propagator.AddsUp 0) :
    round.countVisit.propagator.AddsUp 1 where
  enqueued := sums.enqueued
  processed := sums.processed
  retired := sums.retired
  visits := congrArg (· + 1) sums.visits
  inconsistencies := sums.inconsistencies

end Round

/-- The visits which had no outcome where calls ended for the given reason.  A falsified
clause is found by a visit, and every other conflict is found outside of visits. -/
def Stop.lostVisits : Option Stop → Nat
  | some (.conflict (.falsifiedClause _ _)) => 1
  | _ => 0

namespace Propagator

variable {propagator : Propagator} {formula : Formula} {given : Literal → Prop}

theorem AddsUp.derive (sums : propagator.AddsUp 0) (settled : propagator.Settled formula given)
    (literals : List Literal) :
    (propagator.derive literals).propagator.AddsUp
      (Stop.lostVisits (propagator.derive literals).stop?) := by
  have outcome := derive_preserves
    (motive := fun round _ _ => round.Extends (.start propagator) ∧ round.propagator.AddsUp 0)
    settled.guarded literals (fun _ => ⟨.refl _, sums⟩)
    (fun new before lost =>
      ⟨(before lost).1.enqueue _, Round.addsUp_enqueue (before lost).2 new⟩)
    (fun _ before queue => ⟨{ before.1 with }, Round.addsUp_pop before.2 queue⟩)
    (fun _ before visited => ⟨before.1.visited visited, visited.addsUp before.2⟩)
  have consistent : ∀ round : Round, round.Extends (.start propagator) →
      round.propagator.inconsistent = false :=
    fun _ extended => extended.inconsistent_eq.trans settled.consistent
  generalize propagator.derive literals = answer at outcome ⊢
  cases outcome with
  | settled holds => exact holds.2
  | refused holds => exact holds.2.contradicted (consistent _ holds.1)
  | @falsified round _ _ _ _ holds =>
      have unmarked : round.countVisit.propagator.inconsistent = false :=
        consistent round holds.1
      exact (Round.addsUp_countVisit holds.2).contradicted unmarked

theorem addsUp_of_ofFormula (made : (ofFormula formula).result = .ok propagator) :
    propagator.AddsUp 0 := by
  have sums := (addsUp_fresh formula).derive (settled_fresh formula) formula.unitLiterals
  rcases derive_of_ofFormula made with ⟨rfl, ended⟩
  rw [ended] at sums
  exact sums

theorem AddsUp.assume (sums : propagator.AddsUp 0) (settled : propagator.Settled formula given)
    (literals : List Literal) :
    (propagator.assume literals).propagator.AddsUp
      (Stop.lostVisits (propagator.assume literals).stop?) := by
  rcases settled.assume_eq_derive literals with ⟨after, result⟩
  rw [after, Answer.stop?, result]
  exact sums.derive settled literals

end Propagator

/-- Calls on one line keep the sums, and what the first failing call leaves behind stays. -/
theorem Branch.Reached.addsUp_assumeAll {formula : Formula} {branch : Branch}
    (reached : branch.Reached formula) (line : List (List Literal))
    (well : branch.wentWell = true) (sums : branch.propagator.AddsUp 0) :
    (branch.assumeAll line).propagator.AddsUp
      (Stop.lostVisits (branch.propagator.failure? line)) := by
  refine reached.preserves_assumeAll
    (motive := fun propagator stop => propagator.AddsUp (Stop.lostVisits stop)) ?_ line well sums
  intro propagator given settled before literals
  exact before.assume settled literals

/-- The counts add up in every state of a session, whether the calls ended well or not.
A visit without an outcome is counted exactly if the first failure on the line of the
propagator was a falsified clause.  On a consistent propagator all units are processed. -/
theorem tally_adds_up {strict : Bool} {clauses : List (List Literal)} {propagator : Propagator}
    (made : (Propagator.ofLists strict clauses).result = .ok propagator) (calls : List Call)
    {slot : Nat} {branch : Branch}
    (found : ((Session.start propagator).run calls).branches[slot]? = some branch) :
    ∃ line, (Session.lines calls)[slot]? = some line ∧
      branch.propagator.inconsistent = (propagator.failure? line).isSome ∧
      branch.propagator.AddsUp (Stop.lostVisits (propagator.failure? line)) ∧
      (branch.propagator.inconsistent = false →
        branch.propagator.tally.processedUnits = branch.propagator.tally.enqueuedUnits ∧
          branch.propagator.tally.enqueuedUnits = branch.propagator.units.size) := by
  rcases Propagator.exists_formula_of_made made with ⟨formula, _, ofFormula⟩
  have reached := Session.reached ofFormula calls branch (List.mem_of_getElem? found)
  rw [Session.getElem?_branches_run ofFormula, Option.map_eq_some_iff] at found
  rcases found with ⟨line, read, rfl⟩
  have sums := (Branch.reached_made ofFormula).addsUp_assumeAll line rfl
    (Propagator.addsUp_of_ofFormula ofFormula)
  have met : ((Branch.made propagator).assumeAll line).propagator.inconsistent =
      (propagator.failure? line).isSome := by
    have well := reached.wentWell_eq
    rw [Branch.wentWell_assumeAll] at well
    simpa [Branch.made, ← Option.not_isSome] using well.symm
  refine ⟨line, read, met, sums, ?_⟩
  intro consistent
  have processed := sums.processed
  rw [(reached.settled_of_consistent consistent).queue_eq] at processed
  exact ⟨processed, sums.enqueued⟩

/-- On a clone that fails at a falsified clause, one visit is left without an outcome. -/
theorem failed_clone_adds_up :
    let first : Literal := ⟨1, by decide, by decide⟩
    let second : Literal := ⟨2, by decide, by decide⟩
    let third : Literal := ⟨3, by decide, by decide⟩
    let clauses := [[-first, second], [-first, -second, third], [-second, -third]]
    let calls : List Call := [.clone 0, .assumeOne 1 first]
    ∃ propagator, (Propagator.ofLists false clauses).result = .ok propagator ∧
      ∃ branch, ((Session.start propagator).run calls).branches[1]? = some branch ∧
        branch.propagator.inconsistent = true ∧ branch.propagator.AddsUp 1 := by
  intro first second third clauses calls
  have falsified : (Propagator.ofLists false clauses).result.toOption.any (fun propagator =>
      decide (Stop.lostVisits (propagator.failure? [[first]]) = 1)) = true := by
    decide +kernel
  cases made : (Propagator.ofLists false clauses).result with
  | error stop =>
      rw [made] at falsified
      cases falsified
  | ok propagator =>
      simp only [made, Except.toOption, Option.any_some, decide_eq_true_eq] at falsified
      have clone : ((Session.start propagator).run calls).branches[1]? =
          some ((Branch.made propagator).assumeOne first) := rfl
      rcases tally_adds_up made calls clone with ⟨line, read, met, sums, _⟩
      have onlyCall : [[first]] = line := Option.some.inj read
      subst onlyCall
      have failed : (propagator.failure? [[first]]).isSome = true := by
        cases failure : propagator.failure? [[first]] with
        | none => simp [failure, Stop.lostVisits] at falsified
        | some stop => rfl
      rw [falsified] at sums
      exact ⟨propagator, rfl, _, clone, met.trans failed, sums⟩

end UnitPropagation
