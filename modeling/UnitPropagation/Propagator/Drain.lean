import UnitPropagation.Propagator.Visit

namespace UnitPropagation
namespace Round

/-!
# Draining the queue

The queue is drained by taking the oldest unit from it, visiting every clause
which is watched by the unit's negation, and so on until the queue is empty.

The queue may grow on the way.  Draining ends nevertheless, because a literal
enters the queue only when it becomes a unit: literals not known to be true, plus
units that wait, become fewer with each unit taken and stay the same otherwise.
-/

/-- The literals which are not units, and the units which wait. -/
def potential (round : Round) : Nat :=
  4294967296 - round.propagator.units.size + round.propagator.queue.length

@[simp]
theorem potential_note (round : Round) (event : Event) :
    (round.note event).potential = round.potential :=
  rfl

@[simp]
theorem potential_countVisit (round : Round) : round.countVisit.potential = round.potential :=
  rfl

/-- A literal which becomes a unit waits for its turn at the same time. -/
theorem potential_enqueue {round : Round} {literal : Literal}
    (new : round.propagator.isTrue literal = false) :
    (round.enqueue literal).potential = round.potential := by
  have bound := Literal.size_le (round.propagator.units.insert literal)
  have size : (round.propagator.units.insert literal).size = round.propagator.units.size + 1 := by
    rw [Propagator.isTrue] at new
    rw [Std.TreeSet.size_insert, new]
    rfl
  simp only [potential, enqueue, List.length_append, List.length_singleton]
  omega

theorem potential_of_learn {round next : Round} {literal : Literal}
    (learnt : round.learn literal = .ok next) : next.potential = round.potential := by
  unfold learn at learnt
  split at learnt
  · cases learnt
    rfl
  · rename_i new
    split at learnt
    · cases learnt
    · cases learnt
      exact potential_enqueue (by simpa using new)

theorem potential_of_retire {round next : Round} {id : ClauseId}
    (retired : round.retire id = .ok next) : next.potential = round.potential := by
  unfold retire at retired
  split at retired <;> cases retired
  rfl

theorem potential_of_rewatch {round next : Round} {id : ClauseId} {partner replacement : Literal}
    (moved : round.rewatch id partner replacement = .ok next) :
    next.potential = round.potential := by
  unfold rewatch at moved
  split at moved
  · cases moved
  · split at moved <;> cases moved
    rfl

theorem potential_of_settle {round next : Round} {id : ClauseId} {finding : Finding}
    (settled : round.settle id finding = .ok next) : next.potential = round.potential := by
  cases finding with
  | satisfied => exact potential_of_retire settled
  | movable partner replacement => exact potential_of_rewatch settled
  | falsified partner => cases settled
  | forcing partner =>
    simp only [settle] at settled
    cases retired : (round.note (.forces id partner)).retire id with
    | error halt =>
      rw [retired] at settled
      cases settled
    | ok free =>
      rw [retired] at settled
      rw [potential_of_learn settled, potential_of_retire retired, potential_note]

theorem potential_of_visit {round next : Round} {falseLiteral : Literal} {id : ClauseId}
    (visited : round.visit falseLiteral id = .ok next) : next.potential = round.potential := by
  unfold visit at visited
  split at visited
  · cases visited
  · exact (potential_of_settle visited).trans (potential_countVisit round)

theorem potential_of_visitAll {falseLiteral : Literal} {ids : List ClauseId} :
    ∀ {round next : Round}, visitAll falseLiteral round ids = .ok next →
      next.potential = round.potential := by
  induction ids with
  | nil =>
    intro round next visited
    cases visited
    rfl
  | cons id ids ih =>
    intro round next visited
    simp only [visitAll] at visited
    cases first : round.visit falseLiteral id with
    | error halt =>
      rw [first] at visited
      cases visited
    | ok second =>
      rw [first] at visited
      rw [ih visited, potential_of_visit first]

/-- The round in which the oldest waiting unit is looked at and the others wait on. -/
def dequeue (round : Round) (unit : Literal) (waiting : List Literal) : Round :=
  (round.note (.propagating unit)).update fun propagator =>
    { propagator with
      queue := waiting
      tally := { propagator.tally with processedUnits := propagator.tally.processedUnits + 1 } }

/-- The round in which no clause is listed under a literal any more.  Which clauses were listed
there is known from `Watches.take`. -/
def dropWatchers (round : Round) (literal : Literal) : Round :=
  round.update fun propagator =>
    { propagator with watches := (propagator.watches.take literal).2 }

@[simp]
theorem potential_dropWatchers (round : Round) (literal : Literal) :
    (round.dropWatchers literal).potential = round.potential :=
  rfl

/-- Looks for the consequences of one unit, in the clauses which are watched by its negation. -/
def propagate (round : Round) (unit : Literal) : Except Halt Round :=
  visitAll (-unit) (round.dropWatchers (-unit)) (round.propagator.watches.take (-unit)).1

theorem potential_of_propagate {round next : Round} {unit : Literal}
    (propagated : round.propagate unit = .ok next) : next.potential = round.potential := by
  unfold propagate at propagated
  exact (potential_of_visitAll propagated).trans (potential_dropWatchers round (-unit))

theorem potential_dequeue_lt {round : Round} {unit : Literal} {waiting : List Literal}
    (queue : round.propagator.queue = unit :: waiting) :
    (round.dequeue unit waiting).potential < round.potential := by
  simp [potential, dequeue, update, note, queue]

/-- Looks for the consequences of the waiting units, and of those that they force,
until none waits. -/
def drain (round : Round) : Except Halt Round :=
  match _oldest : round.propagator.queue with
  | [] => .ok round
  | unit :: waiting =>
    match _propagated : (round.dequeue unit waiting).propagate unit with
    | .error halt => .error halt
    | .ok next => next.drain
termination_by round.potential
decreasing_by
  rw [potential_of_propagate _propagated]
  exact potential_dequeue_lt _oldest

theorem drain_of_queue_nil {round : Round} (queue : round.propagator.queue = []) :
    round.drain = .ok round := by
  rw [drain]
  split
  · rfl
  · simp_all

theorem drain_of_queue_cons {round : Round} {unit : Literal} {waiting : List Literal}
    (queue : round.propagator.queue = unit :: waiting) :
    round.drain = (round.dequeue unit waiting).propagate unit >>= drain := by
  rw [drain]
  split
  · simp_all
  · rename_i first others found
    rw [queue] at found
    cases found
    split
    · rename_i halt propagated
      rw [propagated]
      rfl
    · rename_i next propagated
      rw [propagated]
      rfl

end Round
end UnitPropagation
