import UnitPropagation.Proofs.Propagation.Line

namespace UnitPropagation

/-!
# The turns of a drain

A drain goes on in turns: the oldest unit is taken from the queue and propagated.  Every
turn lowers the potential of the round, so that there are not more turns than the potential
at the start, and the drain comes to a last one.

What was taken, together with what still waits, is exactly what has become a unit, without
repetitions.  A literal enters the queue only when it becomes a unit, and a turn moves it
from the queue to the taken ones.  So no literal is taken twice in the whole life of a
propagator, and none is taken together with its negation.
-/

namespace Round

/-- Whether a round comes out of the start by a number of complete turns. -/
inductive Turns (start : Round) : Nat → Round → Prop where
  | none : Turns start 0 start
  | more {turns : Nat} {round next : Round} {unit : Literal} {waiting : List Literal} :
      Turns start turns round → round.propagator.queue = unit :: waiting →
      (round.dequeue unit waiting).propagate unit = .ok next → Turns start (turns + 1) next

variable {start next round : Round} {turns : Nat}

theorem Turns.potential_add_le (history : start.Turns turns round) :
    round.potential + turns ≤ start.potential := by
  induction history with
  | none => exact Nat.le_refl _
  | more _ queue propagated ih =>
      have lower := potential_dequeue_lt queue
      rw [potential_of_propagate propagated]
      omega

theorem Turns.first {unit : Literal} {waiting : List Literal}
    (queue : start.propagator.queue = unit :: waiting)
    (propagated : (start.dequeue unit waiting).propagate unit = .ok next)
    (history : next.Turns turns round) : start.Turns (turns + 1) round := by
  induction history with
  | none => exact .more .none queue propagated
  | more _ oldest outcome ih => exact .more ih oldest outcome

/-- Whether a drain ends with the given outcome after the turns that led to this round:
nothing waits any more, or the next turn is cut short. -/
def EndsWith (last : Round) (outcome : Except Halt Round) : Prop :=
  (last.propagator.queue = [] ∧ outcome = .ok last) ∨
    ∃ unit waiting halt, last.propagator.queue = unit :: waiting ∧
      (last.dequeue unit waiting).propagate unit = .error halt ∧ outcome = .error halt

/-- Whether the turns from a round on are bounded in number, and some of them end the drain. -/
structure Terminates (start : Round) : Prop where
  turns_le : ∀ turns later, start.Turns turns later → turns ≤ start.potential
  exists_last : ∃ turns last, start.Turns turns last ∧ last.EndsWith start.drain

theorem exists_last_turn (start : Round) :
    ∃ turns last, start.Turns turns last ∧ last.EndsWith start.drain := by
  fun_induction drain start with
  | case1 start queue => exact ⟨0, start, .none, Or.inl ⟨queue, rfl⟩⟩
  | case2 start unit waiting queue halt propagated =>
      exact ⟨0, start, .none, Or.inr ⟨unit, waiting, halt, queue, propagated, rfl⟩⟩
  | case3 start unit waiting queue next propagated ih =>
      rcases ih with ⟨turns, last, history, ends⟩
      exact ⟨turns + 1, last, history.first queue propagated, ends⟩

theorem terminates (start : Round) : start.Terminates where
  turns_le := by
    intro turns later history
    have bound := history.potential_add_le
    omega
  exists_last := exists_last_turn start

end Round

/-! ## Units that were taken from the queue -/

namespace Event

/-- The unit that was taken from the queue, if this is the event. -/
def taken? : Event → Option Literal
  | propagating unit => some unit
  | _ => none

/-- The units which were taken from the queue, in their order. -/
def taken (trace : Array Event) : List Literal :=
  trace.toList.filterMap taken?

theorem taken_push (trace : Array Event) (event : Event) :
    taken (trace.push event) = taken trace ++ event.taken?.toList := by
  rw [taken, Array.toList_push, List.filterMap_append]
  cases event <;> rfl

theorem taken_append (earlier later : Array Event) :
    taken (earlier ++ later) = taken earlier ++ taken later := by
  rw [taken, Array.toList_append, List.filterMap_append]
  rfl

end Event

/-- The events of assuming batches of literals, one after the other. -/
def Propagator.events (propagator : Propagator) : List (List Literal) → Array Event
  | [] => #[]
  | literals :: line =>
    let answer := propagator.assume literals
    answer.trace ++ answer.propagator.events line

namespace Propagator

/-- Whether the taken literals and the waiting ones are the units, each of them once. -/
structure Records (propagator : Propagator) (taken : List Literal) : Prop where
  nodup : (taken ++ propagator.queue).Nodup
  mem_iff : ∀ literal, literal ∈ taken ++ propagator.queue ↔ literal ∈ propagator.units

/-- Consistent units are taken at most once, and never together with their negation. -/
theorem Records.taken_once {propagator : Propagator} {taken : List Literal}
    (records : propagator.Records taken)
    (consistent : ∀ literal ∈ propagator.units, -literal ∉ propagator.units) :
    taken.Nodup ∧ ∀ literal ∈ taken, -literal ∉ taken := by
  have isUnit : ∀ literal ∈ taken, literal ∈ propagator.units :=
    fun literal isTaken => (records.mem_iff literal).mp (List.mem_append_left _ isTaken)
  refine ⟨(List.nodup_append.mp records.nodup).1, ?_⟩
  intro literal isTaken negated
  exact consistent literal (isUnit literal isTaken) (isUnit (-literal) negated)

theorem records_fresh (formula : Formula) : (fresh formula).Records [] where
  nodup := List.nodup_nil
  mem_iff := by simp [fresh]

end Propagator

namespace Round

variable {round : Round} {taken : List Literal}

theorem records_enqueue (records : round.propagator.Records taken) {literal : Literal}
    (new : literal ∉ round.propagator.units) :
    (round.enqueue literal).propagator.Records taken := by
  have queue : taken ++ (round.enqueue literal).propagator.queue =
      taken ++ round.propagator.queue ++ [literal] := (List.append_assoc _ _ _).symm
  constructor
  case nodup =>
    rw [queue]
    apply List.nodup_append.mpr
    refine ⟨records.nodup, List.pairwise_singleton _ _, ?_⟩
    intro other recorded unit isNew same
    cases List.mem_singleton.mp isNew
    exact new ((records.mem_iff _).mp (same ▸ recorded))
  case mem_iff =>
    intro other
    rw [queue, List.mem_append, List.mem_singleton, records.mem_iff other, mem_units_enqueue]
    exact or_comm

/-- The oldest unit is moved from the queue to the taken ones. -/
theorem records_pop (records : round.propagator.Records taken) {unit : Literal}
    {waiting : List Literal} (queue : round.propagator.queue = unit :: waiting) :
    ((round.dequeue unit waiting).dropWatchers (-unit)).propagator.Records (taken ++ [unit]) := by
  have moved : taken ++ [unit] ++ waiting = taken ++ round.propagator.queue := by
    rw [queue, List.append_assoc]
    rfl
  constructor
  case nodup => exact moved ▸ records.nodup
  case mem_iff => exact fun literal => moved ▸ records.mem_iff literal

theorem records_pop_trace {earlier : List Literal}
    (records : round.propagator.Records (earlier ++ Event.taken round.trace)) {unit : Literal}
    {waiting : List Literal} (queue : round.propagator.queue = unit :: waiting) :
    let next := (round.dequeue unit waiting).dropWatchers (-unit)
    next.propagator.Records (earlier ++ Event.taken next.trace) := by
  intro next
  have trace : Event.taken next.trace = Event.taken round.trace ++ [unit] :=
    Event.taken_push round.trace _
  rw [trace, ← List.append_assoc]
  exact records_pop records queue

theorem Visited.records {next : Round} {lost : Literal} {id : ClauseId} {earlier : List Literal}
    (records : round.propagator.Records (earlier ++ Event.taken round.trace))
    (visited : Visited round lost id (.ok next)) :
    next.propagator.Records (earlier ++ Event.taken next.trace) := by
  cases visited with
  | satisfied => exact { records with }
  | moved => exact { records with }
  | @forced standing partner _ _ _ notTrue =>
      have unchanged : Event.taken (round.countVisit.forced id standing partner).trace =
          Event.taken round.trace := by
        refine (Event.taken_push round.trace _).trans ?_
        exact List.append_nil _
      have retired : ((round.countVisit.note (.forces id partner)).retired id
          standing).propagator.Records (earlier ++ Event.taken round.trace) := { records with }
      rw [unchanged]
      exact records_enqueue retired notTrue

end Round

namespace Propagator

variable {propagator : Propagator} {formula : Formula} {given : Literal → Prop}
  {taken : List Literal}

/-- A call takes from the queue what its trace says. -/
theorem Records.derive (records : propagator.Records taken)
    (settled : propagator.Settled formula given) (literals : List Literal) :
    (propagator.derive literals).propagator.Records
      (taken ++ Event.taken (propagator.derive literals).trace) := by
  have start : (Round.start propagator).propagator.Records
      (taken ++ Event.taken (Round.start propagator).trace) := by
    have none : taken ++ Event.taken (Round.start propagator).trace = taken := List.append_nil taken
    rw [none]
    exact records
  have outcome := derive_preserves
    (motive := fun round _ _ => round.propagator.Records (taken ++ Event.taken round.trace))
    settled.guarded literals (fun _ => start)
    (fun new before lost => Round.records_enqueue (before lost) new)
    (fun _ before queue => Round.records_pop_trace before queue)
    (fun _ before visited => visited.records before)
  -- The event of the conflict itself takes nothing.
  have ends : ∀ (trace : Array Event) conflict,
      Event.taken (trace.push (.contradicted conflict)) = Event.taken trace :=
    fun trace conflict => (Event.taken_push trace _).trans (List.append_nil _)
  generalize propagator.derive literals = answer at outcome ⊢
  cases outcome with
  | settled holds => exact holds
  | refused holds =>
      rw [ends]
      exact { holds with }
  | falsified holds =>
      rw [ends]
      exact { holds with }

theorem taken_ofFormula (formula : Formula) :
    Event.taken (ofFormula formula).trace =
      Event.taken ((fresh formula).derive formula.unitLiterals).trace := by
  rw [ofFormula]
  cases ((fresh formula).derive formula.unitLiterals).result <;>
    simp [Event.taken_push, Event.taken?]

theorem records_of_ofFormula (made : (ofFormula formula).result = .ok propagator) :
    propagator.Records (Event.taken (ofFormula formula).trace) := by
  have records := (records_fresh formula).derive (settled_fresh formula) formula.unitLiterals
  rcases derive_of_ofFormula made with ⟨rfl, _⟩
  rw [taken_ofFormula]
  exact records

theorem Settled.taken_assume (settled : propagator.Settled formula given)
    (literals : List Literal) :
    Event.taken (propagator.assume literals).trace =
      Event.taken (propagator.derive literals).trace := by
  rw [Propagator.assume, settled.consistent, settled.queue_eq]
  cases ended : (propagator.derive literals).result <;>
    simp [ended, Event.taken_push, Event.taken?]

end Propagator

namespace Branch

variable {branch : Branch} {formula : Formula} {taken : List Literal}

theorem Reached.records_assume (reached : branch.Reached formula)
    (records : branch.propagator.Records taken) (literals : List Literal) :
    (branch.assume literals).propagator.Records
      (taken ++ Event.taken (branch.propagator.assume literals).trace) := by
  rcases reached.history.settled_or_broken with settled | broken
  · rw [settled.taken_assume, Branch.assume, (settled.assume_eq_derive literals).1]
    exact records.derive settled literals
  · rw [Branch.assume, Propagator.assume_of_inconsistent broken.inconsistent]
    have none : taken ++ Event.taken #[] = taken := List.append_nil taken
    rw [none]
    exact records

/-- What a line of calls takes is recorded behind what was taken before. -/
theorem Reached.records_assumeAll (line : List (List Literal)) :
    ∀ {branch : Branch} {taken : List Literal}, branch.Reached formula →
      branch.propagator.Records taken →
        (branch.assumeAll line).propagator.Records
          (taken ++ Event.taken (branch.propagator.events line)) := by
  induction line with
  | nil =>
      intro branch taken _ records
      have none : taken ++ Event.taken (branch.propagator.events []) = taken :=
        List.append_nil taken
      rw [none]
      exact records
  | cons literals line ih =>
      intro branch taken reached records
      have after := ih (reached.assume literals) (reached.records_assume records literals)
      rw [Propagator.events, Event.taken_append, ← List.append_assoc]
      exact after

end Branch
end UnitPropagation
