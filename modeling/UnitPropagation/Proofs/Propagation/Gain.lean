import UnitPropagation.Proofs.Propagation.Line

namespace UnitPropagation

/-!
# What a call gains

While a call goes on, it collects the literals which become units.  At every point of it
the collection is exactly what the units have gained since the call began.  So it is where
the call ends well, and this is what the call answers with.

Nothing that was there before is lost.  Units stay units, retired clauses stay retired,
and the formula is the same, whether the call ends well or not.  A call that assumes
nothing but units gains nothing and leaves the propagator as it is.
-/

namespace Round

/-- Whether the derived literals are those which the units have gained over an earlier
propagator, and nothing that this one had is lost. -/
structure Gains (round : Round) (before : Propagator) : Prop where
  mem_derived_iff : ∀ literal,
    literal ∈ round.derived ↔ literal ∈ round.propagator.units ∧ literal ∉ before.units
  units_mono : ∀ literal ∈ before.units, literal ∈ round.propagator.units
  retired_mono : ∀ id, before.watches.standing id = .ok .retired →
    round.propagator.watches.standing id = .ok .retired

theorem gains_start (propagator : Propagator) : (start propagator).Gains propagator where
  mem_derived_iff := by
    intro literal
    simp [start]
  units_mono := fun _ isUnit => isUnit
  retired_mono := fun _ isRetired => isRetired

variable {round : Round} {before : Propagator}

/-- A literal that becomes a unit is derived at the same time. -/
theorem Gains.enqueue (gains : round.Gains before) {literal : Literal}
    (new : literal ∉ round.propagator.units) : (round.enqueue literal).Gains before where
  mem_derived_iff := by
    intro other
    have derived : other ∈ (round.enqueue literal).derived ↔
        other = literal ∨ other ∈ round.derived := by
      change other ∈ round.derived.insert literal ↔ _
      rw [Std.TreeSet.mem_insert, Std.LawfulEqCmp.compare_eq_iff_eq]
      exact or_congr eq_comm Iff.rfl
    have absent : literal ∉ before.units := mt (gains.units_mono literal) new
    rw [derived, mem_units_enqueue, gains.mem_derived_iff other]
    constructor
    · rintro (rfl | ⟨isUnit, isNew⟩)
      · exact ⟨Or.inl rfl, absent⟩
      · exact ⟨Or.inr isUnit, isNew⟩
    · rintro ⟨same | isUnit, isNew⟩
      · exact Or.inl same
      · exact Or.inr ⟨isUnit, isNew⟩
  units_mono := fun other isUnit => mem_units_enqueue.mpr (Or.inr (gains.units_mono other isUnit))
  retired_mono := gains.retired_mono

/-- A visited clause was not retired before the call, since it was not before the visit. -/
theorem Visited.retired_mono {next : Round} {lost : Literal} {id : ClauseId}
    (visited : Visited round lost id (.ok next))
    (retired_mono : ∀ id, before.watches.standing id = .ok .retired →
      round.propagator.watches.standing id = .ok .retired) :
    ∀ id, before.watches.standing id = .ok .retired →
      next.propagator.watches.standing id = .ok .retired := by
  intro other isRetired
  have still := retired_mono other isRetired
  by_cases here : other = id
  · subst here
    rcases visited.exists_watched with ⟨first, second, isWatched⟩
    cases still.symm.trans isWatched
  · rw [visited.standing_of_ne here, still]

theorem Visited.gains {next : Round} {lost : Literal} {id : ClauseId}
    (visited : Visited round lost id (.ok next)) (gains : round.Gains before) :
    next.Gains before := by
  have retired_mono := visited.retired_mono gains.retired_mono
  cases visited with
  | satisfied => exact ⟨gains.mem_derived_iff, gains.units_mono, retired_mono⟩
  | moved => exact ⟨gains.mem_derived_iff, gains.units_mono, retired_mono⟩
  | @forced standing partner clause _ _ notTrue _ _ =>
      have retired : ((round.countVisit.note (.forces id partner)).retired id standing).Gains before :=
        ⟨gains.mem_derived_iff, gains.units_mono, retired_mono⟩
      exact retired.enqueue notTrue

theorem learnAll_of_known {literals : List Literal}
    (known : ∀ literal ∈ literals, literal ∈ round.propagator.units) :
    round.learnAll literals = .ok round := by
  induction literals with
  | nil => rfl
  | cons literal literals ih =>
      rcases List.forall_mem_cons.mp known with ⟨isUnit, others⟩
      have learnt : round.learn literal = .ok round := by
        rw [Round.learn, if_pos (Propagator.isTrue_iff.mpr isUnit)]
      rw [Round.learnAll, learnt]
      exact ih others

end Round

/-- Whether nothing that a propagator had is lost in a later one. -/
structure Propagator.Keeps (later before : Propagator) : Prop where
  formula_eq : later.formula = before.formula
  units_mono : ∀ literal ∈ before.units, literal ∈ later.units
  retired_mono : ∀ id, before.watches.standing id = .ok .retired →
    later.watches.standing id = .ok .retired

namespace Propagator.Settled

variable {propagator : Propagator} {formula : Formula} {given : Literal → Prop}

/-- A call loses nothing, and if it ends well it answers with what the units have gained. -/
theorem derive_gains (settled : propagator.Settled formula given) (literals : List Literal) :
    (propagator.derive literals).propagator.Keeps propagator ∧
    ∀ derived, (propagator.derive literals).result = .ok derived → ∀ literal,
      literal ∈ derived ↔
        literal ∈ (propagator.derive literals).propagator.units ∧ literal ∉ propagator.units := by
  have outcome := derive_preserves
    (motive := fun round _ _ => round.Extends (.start propagator) ∧ round.Gains propagator)
    settled.guarded literals (fun _ => ⟨.refl _, Round.gains_start propagator⟩)
    (fun new before lost => ⟨(before lost).1.enqueue _, (before lost).2.enqueue new⟩)
    (fun _ before _ => ⟨{ before.1 with }, { before.2 with }⟩)
    (fun _ before visited => ⟨before.1.visited visited, visited.gains before.2⟩)
  have keeps : ∀ {round : Round}, round.Extends (.start propagator) → round.Gains propagator →
      round.propagator.Keeps propagator :=
    fun extended gains => ⟨extended.formula_eq, gains.units_mono, gains.retired_mono⟩
  generalize propagator.derive literals = answer at outcome ⊢
  cases outcome with
  | settled holds =>
      refine ⟨keeps holds.1 holds.2, ?_⟩
      intro derived ended
      cases ended
      exact holds.2.mem_derived_iff
  | refused holds =>
      refine ⟨{ keeps holds.1 holds.2 with }, ?_⟩
      intro derived ended
      cases ended
  | falsified holds =>
      refine ⟨{ keeps holds.1 holds.2 with }, ?_⟩
      intro derived ended
      cases ended

theorem assume_of_known (settled : propagator.Settled formula given) {literals : List Literal}
    (known : ∀ literal ∈ literals, literal ∈ propagator.units) :
    propagator.assume literals = ⟨.ok ∅, propagator, #[.derived 0]⟩ := by
  have learnt : (Round.start propagator).learnAll literals = .ok (.start propagator) :=
    Round.learnAll_of_known known
  have drained : (Round.start propagator).drain = .ok (.start propagator) :=
    Round.drain_of_queue_nil settled.queue_eq
  have ended : (Round.start propagator).learnAll literals >>= Round.drain =
      .ok (.start propagator) := by
    rw [learnt]
    exact drained
  have derived : propagator.derive literals = ⟨.ok ∅, propagator, #[]⟩ := by
    rw [Propagator.derive, ended]
    rfl
  simp only [Propagator.assume, settled.consistent, settled.queue_eq, derived]
  rfl

end Propagator.Settled

/-- A call on a consistent propagator of a session that ends well answers with exactly the
literals which have become units.  All units and all assumed literals are units then, and
assuming any of the units once more changes nothing at all.  A call that fails loses
neither a unit nor a clause, and brings no retired clause back. -/
theorem call_gains_exactly {strict : Bool} {clauses : List (List Literal)} {propagator : Propagator}
    (made : (Propagator.ofLists strict clauses).result = .ok propagator) (calls : List Call) :
    ∀ branch ∈ ((Session.start propagator).run calls).branches,
      branch.propagator.inconsistent = false → ∀ literals,
        let answer := branch.propagator.assume literals
        (∀ derived, answer.result = .ok derived →
          (∀ literal, literal ∈ derived ↔
            literal ∈ answer.propagator.units ∧ literal ∉ branch.propagator.units) ∧
          (∀ literal ∈ branch.propagator.units, literal ∈ answer.propagator.units) ∧
          (∀ literal ∈ literals, literal ∈ answer.propagator.units) ∧
          ∀ known : List Literal, (∀ literal ∈ known, literal ∈ answer.propagator.units) →
            answer.propagator.assume known = ⟨.ok ∅, answer.propagator, #[.derived 0]⟩) ∧
        ∀ stop, answer.result = .error stop → answer.propagator.Keeps branch.propagator := by
  intro branch member consistent literals answer
  rcases Propagator.exists_formula_of_made made with ⟨formula, _, ofFormula⟩
  have settled := (Session.reached ofFormula calls branch member).settled_of_consistent consistent
  rcases settled.assume_eq_derive literals with ⟨after, result⟩
  rcases settled.derive_gains literals with ⟨keeps, gains⟩
  rw [← after] at keeps gains
  rw [← result] at gains
  refine ⟨?_, fun _ _ => keeps⟩
  intro derived ended
  rcases settled.assume literals with ⟨_, settledAfter⟩ | ⟨⟨conflict, failed⟩, _⟩
  · refine ⟨gains derived ended, keeps.units_mono, ?_, ?_⟩
    · intro literal assumed
      exact settledAfter.given_units literal (Or.inr (List.mem_append_right _ assumed))
    · intro known isUnit
      exact settledAfter.assume_of_known isUnit
  · cases ended.symm.trans failed

/-- On a clone, a forced literal is gained together with the assumed one, and assuming it
once more changes nothing. -/
theorem clone_gains_forced_literal :
    let first : Literal := ⟨1, by decide, by decide⟩
    let second : Literal := ⟨2, by decide, by decide⟩
    let third : Literal := ⟨3, by decide, by decide⟩
    let clauses := [[-first, second], [-second, -third, first]]
    ∃ propagator, (Propagator.ofLists false clauses).result = .ok propagator ∧
      ∃ branch, ((Session.start propagator).run [.clone 0, .assumeOne 1 third]).branches[1]? =
          some branch ∧
        second ∉ branch.propagator.units ∧
        second ∈ (branch.propagator.assume [first]).propagator.units ∧
        (branch.propagator.assume [first]).propagator.assume [second] =
          ⟨.ok ∅, (branch.propagator.assume [first]).propagator, #[.derived 0]⟩ := by
  intro first second third clauses
  have forced : (Propagator.ofLists false clauses).result.toOption.any (fun propagator =>
      let reached := (propagator.assumeOne third).propagator
      !reached.inconsistent &&
        (reached.assume [first]).result.toOption.any (·.contains second)) = true := by
    decide +kernel
  rcases Except.exists_ok_of_any forced with ⟨propagator, made, forced⟩
  simp only [Bool.and_eq_true, Bool.not_eq_true'] at forced
  rcases forced with ⟨consistent, ends⟩
  have clone : ((Session.start propagator).run [.clone 0, .assumeOne 1 third]).branches[1]? =
      some ((Branch.made propagator).assumeOne third) := rfl
  rcases call_gains_exactly made _ _ (List.mem_of_getElem? clone) consistent [first]
    with ⟨ended, _⟩
  cases result : ((propagator.assumeOne third).propagator.assume [first]).result with
  | error stop =>
      rw [result] at ends
      cases ends
  | ok derived =>
      rw [result] at ends
      rcases ended derived result with ⟨exactly, _, _, again⟩
      rcases (exactly second).mp (Std.TreeSet.contains_iff_mem.mp ends) with ⟨isUnit, isNew⟩
      refine ⟨propagator, made, _, clone, isNew, isUnit, again [second] ?_⟩
      intro literal known
      cases List.mem_singleton.mp known
      exact isUnit

end UnitPropagation
