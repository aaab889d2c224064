import UnitPropagation.Proofs.Propagation.Gain
import UnitPropagation.Proofs.Propagation.Turns

namespace UnitPropagation

/-!
# The trace of a call is a derivation

A call whose literals are all learnt leaves a trace that can be read as a derivation.  At
every point of the drain the units are the literals which were units before, those which the
call assumes, and those which the trace says were forced.  A clause forces a literal only
where the negations of all its other literals are among them, and the literal itself and its
negation are not.

The queue is first in, first out.  So the units that were taken from it, followed by those that
still wait, are at every point the new ones among the assumed literals, followed by the forced
ones in the order in which they were forced.
-/

namespace Event

def forced? : Event → Option Literal
  | forces _ literal => some literal
  | _ => none

/-- The literals which were forced, in their order. -/
def forced (trace : Array Event) : List Literal :=
  trace.toList.filterMap forced?

theorem forced_push (trace : Array Event) (event : Event) :
    forced (trace.push event) = forced trace ++ event.forced?.toList := by
  rw [forced, Array.toList_push, List.filterMap_append]
  cases event <;> rfl

end Event

namespace Propagator

/-- The literals among the given ones which are no units, in their order and without
repetitions. -/
def newcomers (propagator : Propagator) (literals : List Literal) : List Literal :=
  (literals.filter fun literal => !propagator.isTrue literal).eraseDups

theorem mem_newcomers {propagator : Propagator} {literals : List Literal} {literal : Literal} :
    literal ∈ propagator.newcomers literals ↔
      literal ∈ literals ∧ literal ∉ propagator.units := by
  rw [newcomers, List.mem_eraseDups, List.mem_filter, Bool.not_eq_true',
    ← Bool.not_eq_true, isTrue_iff]

/-- Whether a literal is a unit after these events of a call: it was one before, the call
assumes it, or a clause has forced it. -/
def KnownAfter (before : Propagator) (literals : List Literal) (trace : Array Event)
    (literal : Literal) : Prop :=
  literal ∈ before.units ∨ literal ∈ literals ∨ literal ∈ Event.forced trace

theorem knownAfter_push_forces {before : Propagator} {literals : List Literal}
    {trace : Array Event} {id : ClauseId} {literal other : Literal} :
    before.KnownAfter literals (trace.push (.forces id literal)) other ↔
      other = literal ∨ before.KnownAfter literals trace other := by
  have forced : Event.forced (trace.push (.forces id literal)) = Event.forced trace ++ [literal] :=
    Event.forced_push _ _
  rw [KnownAfter, forced, List.mem_append, List.mem_singleton, ← or_assoc, ← or_assoc, or_comm,
    or_assoc]
  rfl

/-- Whether a clause forces a literal after these events of a call, whose drain begins with
the round `learnt`.  There is a point of the drain after these events at which the clause is
visited, and the units at this point are what is known after the events. -/
structure Forces (before : Propagator) (literals : List Literal) (learnt : Round)
    (trace : Array Event) (id : ClauseId) (literal : Literal) : Prop where
  exists_point : ∃ round lost remaining, Point learnt round lost (id :: remaining) ∧
    round.trace = trace ∧
      ∀ other, other ∈ round.propagator.units ↔ before.KnownAfter literals trace other
  exists_clause : ∃ clause, before.formula.clause id = .ok clause ∧ literal ∈ clause.literals ∧
    ∀ other ∈ clause.literals, other ≠ literal → before.KnownAfter literals trace (-other)
  unassigned : ¬before.KnownAfter literals trace literal ∧
    ¬before.KnownAfter literals trace (-literal)

/-- Whether every forced literal of a trace is forced by its clause after the events which
precede it. -/
def Justifies (before : Propagator) (literals : List Literal) (learnt : Round)
    (trace : Array Event) : Prop :=
  ∀ front id literal back, trace = front.push (.forces id literal) ++ back →
    before.Forces literals learnt front id literal

variable {before : Propagator} {literals : List Literal} {learnt : Round} {trace : Array Event}

/-- One more event needs a justification only if it forces a literal. -/
theorem Justifies.push (justifies : before.Justifies literals learnt trace) {event : Event}
    (new : ∀ id literal, event = .forces id literal →
      before.Forces literals learnt trace id literal) :
    before.Justifies literals learnt (trace.push event) := by
  intro front id literal back split
  by_cases last : back = #[]
  · rw [last, Array.append_empty, Array.push_eq_push] at split
    rcases split with ⟨same, rfl⟩
    exact new id literal same
  · rcases Array.exists_push_of_ne_empty last with ⟨others, final, rfl⟩
    rw [Array.append_push, Array.push_eq_push] at split
    exact justifies front id literal others split.2

end Propagator

namespace Round

theorem newcomers_of_unit {round : Round} {literal : Literal} {literals : List Literal}
    (isUnit : literal ∈ round.propagator.units) :
    round.propagator.newcomers (literal :: literals) = round.propagator.newcomers literals := by
  have known : round.propagator.isTrue literal = true := Propagator.isTrue_iff.mpr isUnit
  simp [Propagator.newcomers, known]

/-- A literal that has become a unit is no newcomer any more. -/
theorem newcomers_of_new {round : Round} {literal : Literal} {literals : List Literal}
    (isNew : literal ∉ round.propagator.units) :
    round.propagator.newcomers (literal :: literals) =
      literal :: (round.enqueue literal).propagator.newcomers literals := by
  have unknown : round.propagator.isTrue literal = false := by
    rw [← Bool.not_eq_true, Propagator.isTrue_iff]
    exact isNew
  have later : ∀ other, (!(round.enqueue literal).propagator.isTrue other) =
      (!other == literal && !round.propagator.isTrue other) := by
    intro other
    rw [← Bool.not_or, Bool.not_inj_iff, Bool.eq_iff_iff, Propagator.isTrue_iff,
      mem_units_enqueue, Bool.or_eq_true, beq_iff_eq, Propagator.isTrue_iff]
  simp only [Propagator.newcomers, List.filter_cons, unknown, Bool.not_false, if_true,
    List.eraseDups_cons, List.filter_filter, later]

/-- Learnt literals wait behind the others, unless they are units already. -/
theorem queue_of_learnAll {literals : List Literal} :
    ∀ {round next : Round}, round.learnAll literals = .ok next →
      next.propagator.queue =
        round.propagator.queue ++ round.propagator.newcomers literals := by
  induction literals with
  | nil =>
      intro round next learnt
      cases learnt
      exact (List.append_nil _).symm
  | cons literal literals ih =>
      intro round next learnt
      simp only [learnAll] at learnt
      rcases round.learn_cases literal with ⟨isUnit, known⟩ | ⟨_, refused⟩ | ⟨isNew, _, enqueued⟩
      · rw [known] at learnt
        rw [ih learnt, newcomers_of_unit isUnit]
      · rw [refused] at learnt
        cases learnt
      · rw [enqueued] at learnt
        rw [ih learnt, newcomers_of_new isNew]
        exact List.append_assoc _ [literal] _

theorem trace_of_learnAll {round next : Round} {literals : List Literal}
    (learnt : round.learnAll literals = .ok next) : next.trace = round.trace :=
  (learnAll_preserves (motive := fun other => other.trace = round.trace) literals round
    (fun _ _ _ same => same) rfl).1 learnt

/-! ## Forced literals at the points of a drain -/

/-- Whether the units and the queue of a round are what its trace says about a call that
assumes the literals, and whatever was forced was new. -/
structure Tracks (round : Round) (before : Propagator) (literals : List Literal) : Prop where
  units_iff : ∀ literal,
    literal ∈ round.propagator.units ↔ before.KnownAfter literals round.trace literal
  taken_append_queue : Event.taken round.trace ++ round.propagator.queue =
    before.newcomers literals ++ Event.forced round.trace
  forced_nodup : (Event.forced round.trace).Nodup
  forced_new : ∀ literal ∈ Event.forced round.trace,
    literal ∉ before.units ∧ literal ∉ literals

variable {round learnt : Round} {before : Propagator} {literals : List Literal}

theorem tracks_of_learnAll (queue : before.queue = [])
    (learning : (start before).learnAll literals = .ok learnt) :
    learnt.Tracks before literals := by
  have trace : learnt.trace = #[] := trace_of_learnAll learning
  have waiting := queue_of_learnAll learning
  constructor
  case units_iff =>
    intro literal
    rw [mem_units_of_learnAll learning, trace]
    simp [Propagator.KnownAfter, start, Event.forced]
  case taken_append_queue =>
    rw [waiting, trace]
    simp [Event.forced, Event.taken, start, queue]
  case forced_nodup =>
    rw [trace]
    exact List.nodup_nil
  case forced_new =>
    rw [trace]
    exact fun literal isForced => absurd isForced List.not_mem_nil

theorem Tracks.popped (tracks : round.Tracks before literals) {unit : Literal}
    {waiting : List Literal} (queue : round.propagator.queue = unit :: waiting) :
    ((round.dequeue unit waiting).dropWatchers (-unit)).Tracks before literals := by
  have trace : ((round.dequeue unit waiting).dropWatchers (-unit)).trace =
      round.trace.push (.propagating unit) := rfl
  have forced : Event.forced (round.trace.push (.propagating unit)) = Event.forced round.trace :=
    (Event.forced_push _ _).trans (List.append_nil _)
  constructor
  case units_iff =>
    intro literal
    rw [trace, Propagator.KnownAfter, forced]
    exact tracks.units_iff literal
  case taken_append_queue =>
    rw [trace, forced, Event.taken_push, ← tracks.taken_append_queue, queue, List.append_assoc]
    rfl
  case forced_nodup => exact trace ▸ forced ▸ tracks.forced_nodup
  case forced_new => exact trace ▸ forced ▸ tracks.forced_new

/-- A forced literal becomes a unit, waits, and is new. -/
theorem Tracks.visited (tracks : round.Tracks before literals) {next : Round} {lost : Literal}
    {id : ClauseId} (visited : Visited round lost id (.ok next)) :
    next.Tracks before literals := by
  cases visited with
  | satisfied => exact { tracks with }
  | moved => exact { tracks with }
  | @forced standing partner clause _ _ notTrue _ _ =>
      rw [tracks.units_iff, Propagator.KnownAfter, not_or, not_or] at notTrue
      rcases notTrue with ⟨notUnit, notAssumed, notForced⟩
      have trace : (round.countVisit.forced id standing partner).trace =
          round.trace.push (.forces id partner) := rfl
      have forced : Event.forced (round.trace.push (.forces id partner)) =
          Event.forced round.trace ++ [partner] := Event.forced_push _ _
      have taken : Event.taken (round.trace.push (.forces id partner)) =
          Event.taken round.trace := (Event.taken_push _ _).trans (List.append_nil _)
      constructor
      case units_iff =>
        intro literal
        rw [trace, Propagator.knownAfter_push_forces, ← tracks.units_iff]
        exact mem_units_enqueue
      case taken_append_queue =>
        rw [trace, forced, taken, ← List.append_assoc, ← tracks.taken_append_queue,
          List.append_assoc]
        rfl
      case forced_nodup =>
        rw [trace, forced, List.nodup_append]
        refine ⟨tracks.forced_nodup, List.pairwise_singleton _ _, ?_⟩
        intro earlier isForced last isLast same
        cases List.mem_singleton.mp isLast
        exact notForced (same ▸ isForced)
      case forced_new =>
        intro literal
        rw [trace, forced, List.mem_append, List.mem_singleton]
        rintro (earlier | rfl)
        · exact tracks.forced_new literal earlier
        · exact ⟨notUnit, notAssumed⟩

end Round

theorem Propagator.justifies_empty (before : Propagator) (literals : List Literal) (learnt : Round) :
    before.Justifies literals learnt #[] := by
  intro front id literal back split
  have size := congrArg Array.size split
  rw [Array.size_append, Array.size_push, Array.size_empty] at size
  omega

/-- Every forced literal in the trace of a drain is justified. -/
theorem Point.justifies {learnt round : Round} {before : Propagator} {literals : List Literal}
    {lost : Literal} {remaining : List ClauseId}
    (guarded : ∀ lost, learnt.propagator.Guarded lost [])
    (formula_eq : learnt.propagator.formula = before.formula)
    (initially : learnt.Tracks before literals) (trace : learnt.trace = #[])
    (point : Point learnt round lost remaining) :
    round.Tracks before literals ∧ before.Justifies literals learnt round.trace := by
  induction point with
  | begun lost => exact ⟨initially, trace ▸ before.justifies_empty literals learnt⟩
  | popped earlier queue ih => exact ⟨ih.1.popped queue, ih.2.push nofun⟩
  | @visited round next lost id remaining earlier visit ih =>
      rcases ih with ⟨tracks, justifies⟩
      have outcome := Round.visited (earlier.guarded guarded).coherent
      rw [visit] at outcome
      refine ⟨tracks.visited outcome, ?_⟩
      cases outcome with
      | satisfied => exact justifies
      | moved => exact justifies
      | @forced standing partner clause sees member notTrue notFalse othersFalse =>
          have read : before.formula.clause id = .ok clause := by
            rw [← formula_eq, ← (earlier.extends guarded).formula_eq]
            exact sees.clause_eq
          refine justifies.push ?_
          intro forcing literal same
          cases same
          constructor
          case exists_point => exact ⟨round, lost, remaining, earlier, rfl, tracks.units_iff⟩
          case exists_clause =>
            refine ⟨clause, read, member, ?_⟩
            intro other otherMem different
            exact (tracks.units_iff _).mp (othersFalse other otherMem different)
          case unassigned =>
            exact ⟨mt (tracks.units_iff _).mpr notTrue, mt (tracks.units_iff _).mpr notFalse⟩

/-! ## Traces of calls are derivations -/

namespace Propagator

/-- Whether the trace of an answer is a derivation in the order of the queue.  Whatever is
forced is justified, and new.  If the call ends well, the literals that were taken are the new
ones among the assumed literals and then the forced ones, and these are what is derived.  If it
fails, a clause was falsified, and the literals that were taken by then are the first of these. -/
structure Derivation (before : Propagator) (literals : List Literal) (learnt : Round)
    (answer : Answer) : Prop where
  justified : before.Justifies literals learnt answer.trace
  forced_nodup : (Event.forced answer.trace).Nodup
  forced_new : ∀ literal ∈ Event.forced answer.trace, literal ∉ before.units ∧ literal ∉ literals
  completed : ∀ derived, answer.result = .ok derived →
    Event.taken answer.trace = before.newcomers literals ++ Event.forced answer.trace ∧
      ∀ literal, literal ∈ derived ↔ literal ∈ Event.taken answer.trace
  interrupted : ∀ stop, answer.result = .error stop →
    (∃ id literal, stop = .conflict (.falsifiedClause id literal)) ∧
      Event.taken answer.trace <+: before.newcomers literals ++ Event.forced answer.trace

/-- An event at the end that neither forces nor takes a literal makes no difference. -/
theorem Derivation.push {before : Propagator} {literals : List Literal} {learnt : Round}
    {answer : Answer} (derivation : before.Derivation literals learnt answer) {event : Event}
    (notForced : event.forced? = none) (notTaken : event.taken? = none) :
    before.Derivation literals learnt { answer with trace := answer.trace.push event } := by
  have forced : Event.forced (answer.trace.push event) = Event.forced answer.trace := by
    rw [Event.forced_push, notForced]
    exact List.append_nil _
  have taken : Event.taken (answer.trace.push event) = Event.taken answer.trace := by
    rw [Event.taken_push, notTaken]
    exact List.append_nil _
  constructor
  case justified =>
    apply derivation.justified.push
    rintro id literal rfl
    cases notForced
  case forced_nodup => exact forced ▸ derivation.forced_nodup
  case forced_new => exact forced ▸ derivation.forced_new
  case completed => exact forced ▸ taken ▸ derivation.completed
  case interrupted => exact forced ▸ taken ▸ derivation.interrupted

variable {propagator : Propagator} {formula : Formula} {given : Literal → Prop}
  {literals : List Literal} {learnt : Round}

theorem Settled.derive_derivation (settled : propagator.Settled formula given)
    (learning : (Round.start propagator).learnAll literals = .ok learnt) :
    propagator.Derivation literals learnt (propagator.derive literals) := by
  have outcome := derive_outcome settled.guarded literals
  have gains := (settled.derive_gains literals).2
  have guarded := (guarded_of_learnAll settled.guarded literals).1 learning
  have extended := ((settled.learnAll literals).1 learning).1
  have initially := Round.tracks_of_learnAll settled.queue_eq learning
  have atPoint : ∀ {round lost remaining}, Point learnt round lost remaining →
      round.Tracks propagator literals ∧ propagator.Justifies literals learnt round.trace :=
    Point.justifies guarded extended.formula_eq initially (Round.trace_of_learnAll learning)
  generalize propagator.derive literals = answer at outcome gains ⊢
  cases outcome with
  | @settled other last _ otherLearning point queue =>
      cases learning.symm.trans otherLearning
      rcases atPoint point with ⟨tracks, justifies⟩
      have line := tracks.taken_append_queue
      rw [queue, List.append_nil] at line
      constructor
      case justified => exact justifies
      case forced_nodup => exact tracks.forced_nodup
      case forced_new => exact tracks.forced_new
      case completed =>
        intro derived ended
        refine ⟨line, ?_⟩
        intro literal
        have isNew := tracks.forced_new literal
        rw [gains derived ended, tracks.units_iff, KnownAfter, line, List.mem_append, mem_newcomers]
        tauto
      case interrupted => nofun
  | refused otherLearning => cases learning.symm.trans otherLearning
  | @falsified other round lost partner id remaining otherLearning point =>
      cases learning.symm.trans otherLearning
      rcases atPoint point with ⟨tracks, justifies⟩
      have uninterrupted : propagator.Derivation literals learnt
          ⟨.error (.conflict (.falsifiedClause id partner)),
            round.countVisit.propagator.contradicted, round.countVisit.trace⟩ := by
        constructor
        case justified => exact justifies
        case forced_nodup => exact tracks.forced_nodup
        case forced_new => exact tracks.forced_new
        case completed => nofun
        case interrupted =>
          intro stop ended
          cases ended
          exact ⟨⟨id, partner, rfl⟩, _, tracks.taken_append_queue⟩
      exact uninterrupted.push rfl rfl

theorem Settled.assume_derivation (settled : propagator.Settled formula given)
    (learning : (Round.start propagator).learnAll literals = .ok learnt) :
    propagator.Derivation literals learnt (propagator.assume literals) := by
  have derivation := settled.derive_derivation learning
  rw [Propagator.assume, settled.consistent, settled.queue_eq]
  cases ended : (propagator.derive literals).result with
  | ok derived =>
      simp only [List.isEmpty_nil, Bool.not_true, Bool.false_eq_true, if_false, ended]
      have noted := derivation.push (rfl : (Event.derived derived.size).forced? = none) rfl
      rw [ended] at noted
      exact noted
  | error stop =>
      simp only [List.isEmpty_nil, Bool.not_true, Bool.false_eq_true, if_false, ended]
      exact derivation

end Propagator

/-- The trace of a call on a consistent propagator of a session is a derivation by unit
propagation in the order of the queue, if no literal is refused while the assumed ones are
learnt. -/
theorem trace_is_derivation {strict : Bool} {clauses : List (List Literal)} {propagator : Propagator}
    (made : (Propagator.ofLists strict clauses).result = .ok propagator) (calls : List Call) :
    ∀ branch ∈ ((Session.start propagator).run calls).branches,
      branch.propagator.inconsistent = false → ∀ literals learnt,
        (Round.start branch.propagator).learnAll literals = .ok learnt →
          branch.propagator.Derivation literals learnt (branch.propagator.assume literals) := by
  intro branch member consistent literals learnt learning
  rcases Propagator.exists_formula_of_made made with ⟨formula, _, ofFormula⟩
  have reached := Session.reached ofFormula calls branch member
  exact (reached.settled_of_consistent consistent).assume_derivation learning

/-- On a clone that knows the third literal, the first one forces the second and the fourth
through a chain, in this order, although it is assumed twice. -/
theorem chain_is_derived_in_clone :
    let first : Literal := ⟨1, by decide, by decide⟩
    let second : Literal := ⟨2, by decide, by decide⟩
    let third : Literal := ⟨3, by decide, by decide⟩
    let fourth : Literal := ⟨4, by decide, by decide⟩
    let clauses := [[-second, -third, fourth], [-first, second]]
    ∃ propagator, (Propagator.ofLists true clauses).result = .ok propagator ∧
      ∃ branch, ((Session.start propagator).run [.clone 0, .assumeOne 1 third]).branches[1]? =
          some branch ∧
        branch.propagator.inconsistent = false ∧
        ∃ learnt, (Round.start branch.propagator).learnAll [third, first, first] = .ok learnt ∧
          Event.taken (branch.propagator.assume [third, first, first]).trace =
            [first] ++ [second, fourth] := by
  intro first second third fourth clauses
  have chained : (Propagator.ofLists true clauses).result.toOption.any (fun propagator =>
      let reached := (propagator.assumeOne third).propagator
      let answer := reached.assume [third, first, first]
      !reached.inconsistent &&
        ((Round.start reached).learnAll [third, first, first]).toBool && answer.result.toBool &&
        decide (reached.newcomers [third, first, first] = [first]) &&
        decide (Event.forced answer.trace = [second, fourth])) = true := by
    decide +kernel
  rcases Except.exists_ok_of_any chained with ⟨propagator, made, chained⟩
  simp only [Bool.and_eq_true, Bool.not_eq_true', decide_eq_true_eq] at chained
  rcases chained with ⟨⟨⟨⟨consistent, learns⟩, ends⟩, new⟩, forced⟩
  have clone : ((Session.start propagator).run [.clone 0, .assumeOne 1 third]).branches[1]? =
      some ((Branch.made propagator).assumeOne third) := rfl
  refine ⟨propagator, made, _, clone, consistent, ?_⟩
  cases learning : (Round.start (propagator.assumeOne third).propagator).learnAll
      [third, first, first] with
  | error halt =>
      rw [learning] at learns
      cases learns
  | ok learnt =>
      have derivation := trace_is_derivation made _ _ (List.mem_of_getElem? clone) consistent
        [third, first, first] learnt learning
      cases result : ((propagator.assumeOne third).propagator.assume [third, first, first]).result with
      | error stop =>
          rw [result] at ends
          cases ends
      | ok derived =>
          refine ⟨learnt, learning, ?_⟩
          exact (derivation.completed derived result).1.trans (congrArg₂ _ new forced)

end UnitPropagation
