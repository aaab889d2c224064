import UnitPropagation.Propagator.Drain

namespace UnitPropagation

/-!
# Points of a drain

Draining pops the oldest unit, takes the clauses which are watched by its negation,
and visits them one by one.  A point of a drain lies between two of these steps.
It consists of the round so far, the literal whose clauses were taken last, and
those of them that are still to be visited.

A fact about all points is proved by induction over `Point`: a step pops a unit or
visits a clause.  A drain goes on from each of its points as if it had begun there, so
whatever it answers, it answers from a point that comes later than this one.
-/

/-- Where any literal will do, it is the first variable. -/
instance : Inhabited Literal :=
  ⟨⟨1, by decide, by decide⟩⟩

/-- The points of the drain that begins with the round `start`.  Where no clause
remains to be visited, the lost literal is immaterial. -/
inductive Point (start : Round) : Round → Literal → List ClauseId → Prop where
  | begun (lost : Literal) : Point start start lost []
  | popped {round : Round} {lost unit : Literal} {waiting : List Literal} :
      Point start round lost [] → round.propagator.queue = unit :: waiting →
      Point start ((round.dequeue unit waiting).dropWatchers (-unit)) (-unit)
        (round.propagator.watches.take (-unit)).1
  | visited {round next : Round} {lost : Literal} {id : ClauseId} {remaining : List ClauseId} :
      Point start round lost (id :: remaining) → round.visit lost id = .ok next →
      Point start next lost remaining

/-- What comes of a point by some number of steps, or by none. -/
inductive Later (earlier : Round) (lost : Literal) (remaining : List ClauseId) :
    Round → Literal → List ClauseId → Prop where
  | same : Later earlier lost remaining earlier lost remaining
  | popped {round : Round} {final unit : Literal} {waiting : List Literal} :
      Later earlier lost remaining round final [] → round.propagator.queue = unit :: waiting →
      Later earlier lost remaining ((round.dequeue unit waiting).dropWatchers (-unit)) (-unit)
        (round.propagator.watches.take (-unit)).1
  | visited {round next : Round} {final : Literal} {id : ClauseId} {ids : List ClauseId} :
      Later earlier lost remaining round final (id :: ids) → round.visit final id = .ok next →
      Later earlier lost remaining next final ids

namespace Later

variable {earlier : Round} {lost : Literal} {remaining : List ClauseId}

/-- Visits that go well lead to a later point, and a halt has one before it. -/
theorem of_visitAll {final : Literal} {ids : List ClauseId} :
    ∀ {round : Round}, Later earlier lost remaining round final ids →
      (∀ {next}, Round.visitAll final round ids = .ok next →
        Later earlier lost remaining next final []) ∧
      (∀ {halt}, Round.visitAll final round ids = .error halt →
        ∃ before id others, Later earlier lost remaining before final (id :: others) ∧
          before.visit final id = .error halt) := by
  induction ids with
  | nil =>
      intro round later
      refine ⟨?_, ?_⟩
      · intro next visited
        cases visited
        exact later
      · intro halt visited
        cases visited
  | cons id ids ih =>
      intro round later
      simp only [Round.visitAll]
      cases visit : round.visit final id with
      | error halt =>
          refine ⟨?_, ?_⟩
          · intro next visited
            cases visited
          · intro other visited
            cases visited
            exact ⟨round, id, ids, later, visit⟩
      | ok second => exact ih (later.visited visit)

/-- Draining what is left of a drain leads to a later point, whichever way it ends. -/
theorem of_drain {round : Round} {final : Literal}
    (later : Later earlier lost remaining round final []) :
    (∀ {last}, round.drain = .ok last →
      ∃ final, Later earlier lost remaining last final [] ∧ last.propagator.queue = []) ∧
    (∀ {halt}, round.drain = .error halt →
      ∃ before final id ids, Later earlier lost remaining before final (id :: ids) ∧
        before.visit final id = .error halt) := by
  fun_induction Round.drain round generalizing final with
  | case1 round queue =>
      refine ⟨?_, ?_⟩
      · intro last drained
        cases drained
        exact ⟨final, later, queue⟩
      · intro halt drained
        cases drained
  | case2 round unit waiting queue stopped propagated =>
      refine ⟨?_, ?_⟩
      · intro last drained
        cases drained
      · intro halt drained
        cases drained
        rcases (of_visitAll (later.popped queue)).2 propagated with ⟨before, id, ids, found⟩
        exact ⟨before, -unit, id, ids, found⟩
  | case3 round unit waiting queue next propagated ih =>
      exact ih ((of_visitAll (later.popped queue)).1 propagated)

end Later

namespace Point

variable {start round : Round} {lost : Literal} {remaining : List ClauseId}

/-- What comes later than a point is a point of the same drain. -/
theorem later (point : Point start round lost remaining) {next : Round} {final : Literal}
    {ids : List ClauseId} (later : Later round lost remaining next final ids) :
    Point start next final ids := by
  induction later with
  | same => exact point
  | popped _ queue ih => exact ih.popped queue
  | visited _ visit ih => exact ih.visited visit

theorem exists_later (point : Point start round lost remaining) :
    ∃ first, Later start first [] round lost remaining := by
  induction point with
  | begun lost => exact ⟨lost, .same⟩
  | popped _ queue ih =>
      rcases ih with ⟨first, later⟩
      exact ⟨first, later.popped queue⟩
  | visited _ visit ih =>
      rcases ih with ⟨first, later⟩
      exact ⟨first, later.visited visit⟩

/-- From each of its points a drain goes on with the visits that remain. -/
theorem drain_eq (point : Point start round lost remaining) :
    start.drain = Round.visitAll lost round remaining >>= Round.drain := by
  induction point with
  | begun lost => rfl
  | popped _ queue ih => exact ih.trans (Round.drain_of_queue_cons queue)
  | visited _ visit ih =>
      rw [ih, Round.visitAll, visit]
      rfl

/-- A drain that ends well comes from each of its points to one where nothing waits. -/
theorem later_of_drain_ok (point : Point start round lost remaining) {last : Round}
    (drained : start.drain = .ok last) :
    ∃ final, Later round lost remaining last final [] ∧ last.propagator.queue = [] := by
  rw [point.drain_eq] at drained
  cases visits : Round.visitAll lost round remaining with
  | error halt =>
      rw [visits] at drained
      cases drained
  | ok next =>
      rw [visits] at drained
      exact ((Later.of_visitAll .same).1 visits).of_drain.1 drained

/-- A drain that halts comes from each of its points to one where a visit halts. -/
theorem later_of_drain_error (point : Point start round lost remaining) {halt : Halt}
    (drained : start.drain = .error halt) :
    ∃ before final id ids, Later round lost remaining before final (id :: ids) ∧
      before.visit final id = .error halt := by
  rw [point.drain_eq] at drained
  cases visits : Round.visitAll lost round remaining with
  | error other =>
      rw [visits] at drained
      cases drained
      rcases (Later.of_visitAll .same).2 visits with ⟨before, id, ids, found⟩
      exact ⟨before, lost, id, ids, found⟩
  | ok next =>
      rw [visits] at drained
      exact ((Later.of_visitAll .same).1 visits).of_drain.2 drained

end Point
end UnitPropagation
