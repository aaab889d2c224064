import UnitPropagation.Proofs.Propagation.Guard
import UnitPropagation.Propagator.Calls

namespace UnitPropagation

/-!
# The outcomes of a call

A call learns its literals and then drains the queue.  It ends in one of three
ways: a literal is refused because its negation is a unit, a clause is falsified at
some point of the drain, or the drain ends with nothing left to do.  A guarded
propagator is guarded in all three, and its units have only grown.
-/

namespace Round

theorem learn_cases (round : Round) (literal : Literal) :
    (literal ∈ round.propagator.units ∧ round.learn literal = .ok round) ∨
      (-literal ∈ round.propagator.units ∧
        round.learn literal = .error ⟨.conflict (.complementaryUnit literal), round⟩) ∨
      (literal ∉ round.propagator.units ∧ -literal ∉ round.propagator.units ∧
        round.learn literal = .ok (round.enqueue literal)) := by
  by_cases isUnit : literal ∈ round.propagator.units
  · exact Or.inl ⟨isUnit, by rw [learn, if_pos (Propagator.isTrue_iff.mpr isUnit)]⟩
  · by_cases negated : -literal ∈ round.propagator.units
    · refine Or.inr (Or.inl ⟨negated, ?_⟩)
      rw [learn, if_neg (mt Propagator.isTrue_iff.mp isUnit),
        if_pos (Propagator.isFalse_iff.mpr negated)]
    · exact Or.inr (Or.inr ⟨isUnit, negated, learn_eq_enqueue isUnit negated⟩)

/-- What new units preserve is preserved by learning, also by learning that is cut short. -/
theorem learnAll_preserves {motive : Round → Prop} (literals : List Literal) :
    ∀ round : Round,
      (∀ {round literal}, literal ∈ literals → literal ∉ round.propagator.units →
        -literal ∉ round.propagator.units → motive round → motive (round.enqueue literal)) →
      motive round →
      (∀ {next}, round.learnAll literals = .ok next → motive next) ∧
      (∀ {halt}, round.learnAll literals = .error halt → motive halt.round ∧
        ∃ literal ∈ literals, halt.stop = .conflict (.complementaryUnit literal) ∧
          -literal ∈ halt.round.propagator.units) := by
  induction literals with
  | nil =>
      intro round _ initially
      refine ⟨?_, ?_⟩
      · intro next learnt
        cases learnt
        exact initially
      · intro halt learnt
        cases learnt
  | cons literal literals ih =>
      intro round preserves initially
      have later : ∀ {round other}, other ∈ literals → other ∉ round.propagator.units →
          -other ∉ round.propagator.units → motive round → motive (round.enqueue other) :=
        fun member => preserves (List.mem_cons_of_mem literal member)
      have rest : ∀ {second}, motive second →
          (∀ {next}, second.learnAll literals = .ok next → motive next) ∧
          (∀ {halt}, second.learnAll literals = .error halt → motive halt.round ∧
            ∃ other ∈ literal :: literals, halt.stop = .conflict (.complementaryUnit other) ∧
              -other ∈ halt.round.propagator.units) := by
        intro second holds
        refine ⟨(ih second later holds).1, ?_⟩
        intro halt learnt
        rcases (ih second later holds).2 learnt with ⟨atHalt, other, member, found⟩
        exact ⟨atHalt, other, List.mem_cons_of_mem literal member, found⟩
      simp only [learnAll]
      rcases round.learn_cases literal with ⟨_, known⟩ | ⟨negated, refused⟩ | ⟨new, free, enqueued⟩
      · rw [known]
        exact rest initially
      · rw [refused]
        refine ⟨?_, ?_⟩
        · intro next learnt
          cases learnt
        · intro halt learnt
          cases learnt
          exact ⟨initially, literal, List.mem_cons_self, rfl, negated⟩
      · rw [enqueued]
        exact rest (preserves List.mem_cons_self new free initially)

/-- Learning that ends well has made units of the literals and of nothing else. -/
theorem mem_units_of_learnAll {literals : List Literal} :
    ∀ {round next : Round}, round.learnAll literals = .ok next → ∀ other,
      other ∈ next.propagator.units ↔ other ∈ round.propagator.units ∨ other ∈ literals := by
  induction literals with
  | nil =>
      intro round next learnt other
      cases learnt
      simp
  | cons literal literals ih =>
      intro round next learnt other
      simp only [learnAll] at learnt
      rcases round.learn_cases literal with ⟨isUnit, known⟩ | ⟨_, refused⟩ | ⟨_, _, enqueued⟩
      · rw [known] at learnt
        rw [ih learnt other, List.mem_cons]
        constructor
        · exact Or.imp_right Or.inr
        · rintro (before | rfl | later)
          · exact Or.inl before
          · exact Or.inl isUnit
          · exact Or.inr later
      · rw [refused] at learnt
        cases learnt
      · rw [enqueued] at learnt
        rw [ih learnt other, mem_units_enqueue, List.mem_cons, or_assoc]
        exact or_left_comm

end Round

/-- Whether a round works on the same formula as an earlier one and has lost no unit. -/
structure Round.Extends (round start : Round) : Prop where
  formula_eq : round.propagator.formula = start.propagator.formula
  inconsistent_eq : round.propagator.inconsistent = start.propagator.inconsistent
  units_mono : ∀ literal ∈ start.propagator.units, literal ∈ round.propagator.units

namespace Round.Extends

theorem refl (round : Round) : round.Extends round :=
  ⟨rfl, rfl, fun _ isUnit => isUnit⟩

theorem trans {first second third : Round} (later : third.Extends second)
    (earlier : second.Extends first) : third.Extends first where
  formula_eq := later.formula_eq.trans earlier.formula_eq
  inconsistent_eq := later.inconsistent_eq.trans earlier.inconsistent_eq
  units_mono := fun literal isUnit =>
    later.units_mono literal (earlier.units_mono literal isUnit)

theorem enqueue {round start : Round} (extended : round.Extends start) (literal : Literal) :
    (round.enqueue literal).Extends start where
  formula_eq := extended.formula_eq
  inconsistent_eq := extended.inconsistent_eq
  units_mono := fun other isUnit =>
    mem_units_enqueue.mpr (Or.inr (extended.units_mono other isUnit))

theorem visited {round next start : Round} {lost : Literal} {id : ClauseId}
    (extended : round.Extends start) (visited : Visited round lost id (.ok next)) :
    next.Extends start := by
  cases visited with
  | satisfied => exact { extended with }
  | moved => exact { extended with }
  | @forced standing partner =>
      have retired : ((round.countVisit.note (.forces id partner)).retired id standing).Extends start :=
        { extended with }
      exact retired.enqueue partner

end Round.Extends

theorem Point.extends {start round : Round} {lost : Literal} {remaining : List ClauseId}
    (initially : ∀ lost, start.propagator.Guarded lost [])
    (point : Point start round lost remaining) : round.Extends start := by
  refine point.preserves (motive := fun round _ _ => round.Extends start) initially
    (fun _ => .refl start) ?_ ?_
  · intro round lost unit waiting _ before _
    exact { before with }
  · intro round next lost id remaining _ before visited
    exact before.visited visited

namespace Propagator

variable {propagator : Propagator}

/-- The ways in which a call ends. -/
inductive Outcome (propagator : Propagator) (literals : List Literal) : Answer → Prop where
  | settled {learnt last : Round} {lost : Literal}
      (learning : (Round.start propagator).learnAll literals = .ok learnt)
      (point : Point learnt last lost []) (queue : last.propagator.queue = []) :
      Outcome propagator literals ⟨.ok last.derived, last.propagator, last.trace⟩
  | refused {round : Round} {literal : Literal}
      (learning : (Round.start propagator).learnAll literals =
        .error ⟨.conflict (.complementaryUnit literal), round⟩) :
      Outcome propagator literals
        ⟨.error (.conflict (.complementaryUnit literal)), round.propagator.contradicted,
          round.trace.push (.contradicted (.complementaryUnit literal))⟩
  | falsified {learnt round : Round} {lost partner : Literal} {id : ClauseId}
      {remaining : List ClauseId}
      (learning : (Round.start propagator).learnAll literals = .ok learnt)
      (point : Point learnt round lost (id :: remaining))
      (visited : Round.Visited round lost id
        (.error ⟨.conflict (.falsifiedClause id partner), round.countVisit⟩)) :
      Outcome propagator literals
        ⟨.error (.conflict (.falsifiedClause id partner)),
          round.countVisit.propagator.contradicted,
          round.countVisit.trace.push (.contradicted (.falsifiedClause id partner))⟩

theorem guarded_of_learnAll (guarded : ∀ lost, propagator.Guarded lost [])
    (literals : List Literal) :
    (∀ {learnt}, (Round.start propagator).learnAll literals = .ok learnt →
      ∀ lost, learnt.propagator.Guarded lost []) ∧
    (∀ {halt}, (Round.start propagator).learnAll literals = .error halt →
      ∀ lost, halt.round.propagator.Guarded lost []) := by
  have learning := Round.learnAll_preserves
    (motive := fun round => ∀ lost, round.propagator.Guarded lost []) literals (.start propagator)
    (fun _ new free before lost => Round.guarded_enqueue (before lost) new free) guarded
  exact ⟨learning.1, fun stopped => (learning.2 stopped).1⟩

/-- Every call on a guarded propagator ends in one of the three ways. -/
theorem derive_outcome (guarded : ∀ lost, propagator.Guarded lost []) (literals : List Literal) :
    propagator.Outcome literals (propagator.derive literals) := by
  unfold derive
  cases learning : (Round.start propagator).learnAll literals with
  | error halt =>
      have stopped := (Round.learnAll_preserves (motive := fun _ => True) literals (.start propagator)
        (fun _ _ _ _ => trivial) trivial).2 learning
      rcases halt with ⟨stop, round⟩
      rcases stopped with ⟨_, literal, _, rfl, _⟩
      exact .refused learning
  | ok learnt =>
      have learntGuarded := (guarded_of_learnAll guarded literals).1 learning
      have begun : Point learnt learnt default [] := .begun default
      rcases begun.drain_cases learntGuarded with
        ⟨last, final, drained, later, queue⟩ |
        ⟨before, final, id, ids, partner, drained, later, visited⟩
      · have ended : (Except.ok learnt >>= Round.drain) = .ok last := drained
        rw [ended]
        exact .settled learning (begun.later later) queue
      · have ended : (Except.ok learnt >>= Round.drain) =
            .error ⟨.conflict (.falsifiedClause id partner), before.countVisit⟩ := drained
        rw [ended]
        exact .falsified learning (begun.later later) visited

/-! ## What a call preserves -/

/-- The ways in which a call ends, each with a fact about the round in which it ends. -/
inductive OutcomeWith (motive : Round → Literal → List ClauseId → Prop) : Answer → Prop where
  | settled {last : Round} {lost : Literal} (holds : motive last lost [])
      (guarded : last.propagator.Guarded lost []) :
      OutcomeWith motive ⟨.ok last.derived, last.propagator, last.trace⟩
  | refused {round : Round} {lost literal : Literal} (holds : motive round lost [])
      (guarded : round.propagator.Guarded lost []) :
      OutcomeWith motive
        ⟨.error (.conflict (.complementaryUnit literal)), round.propagator.contradicted,
          round.trace.push (.contradicted (.complementaryUnit literal))⟩
  | falsified {round : Round} {lost partner : Literal} {id : ClauseId}
      {remaining : List ClauseId} (holds : motive round lost (id :: remaining))
      (guarded : round.propagator.Guarded lost (id :: remaining))
      (visited : Round.Visited round lost id
        (.error ⟨.conflict (.falsifiedClause id partner), round.countVisit⟩)) :
      OutcomeWith motive
        ⟨.error (.conflict (.falsifiedClause id partner)),
          round.countVisit.propagator.contradicted,
          round.countVisit.trace.push (.contradicted (.falsifiedClause id partner))⟩

/-- What new units, popping a unit and visiting a clause preserve holds in the round in which
a call ends, however it ends. -/
theorem derive_preserves {motive : Round → Literal → List ClauseId → Prop}
    (guarded : ∀ lost, propagator.Guarded lost []) (literals : List Literal)
    (start : ∀ lost, motive (.start propagator) lost [])
    (enqueued : ∀ {round literal}, literal ∉ round.propagator.units →
      (∀ lost, motive round lost []) → ∀ lost, motive (round.enqueue literal) lost [])
    (popped : ∀ {round lost unit waiting}, round.propagator.Guarded lost [] → motive round lost [] →
      round.propagator.queue = unit :: waiting →
        motive ((round.dequeue unit waiting).dropWatchers (-unit)) (-unit)
          (round.propagator.watches.take (-unit)).1)
    (visited : ∀ {round next lost id remaining}, round.propagator.Guarded lost (id :: remaining) →
      motive round lost (id :: remaining) → Round.Visited round lost id (.ok next) →
        motive next lost remaining) :
    OutcomeWith motive (propagator.derive literals) := by
  have learning := Round.learnAll_preserves (motive := fun round => ∀ lost, motive round lost [])
    literals (.start propagator) (fun _ new _ before => enqueued new before) start
  have guards := guarded_of_learnAll guarded literals
  have outcome := derive_outcome guarded literals
  generalize propagator.derive literals = answer at outcome ⊢
  cases outcome with
  | settled learnt point =>
      exact .settled (point.preserves (guards.1 learnt) (learning.1 learnt) popped visited)
        (point.guarded (guards.1 learnt))
  | refused refusal =>
      exact .refused ((learning.2 refusal).1 default) (guards.2 refusal default)
  | falsified learnt point ends =>
      exact .falsified (point.preserves (guards.1 learnt) (learning.1 learnt) popped visited)
        (point.guarded (guards.1 learnt)) ends

end Propagator
end UnitPropagation
