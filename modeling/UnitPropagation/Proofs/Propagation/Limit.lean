import UnitPropagation.Proofs.Propagation.Models

namespace UnitPropagation

/-!
# The limit of propagation

A clause that opens with the same literal twice is watched by it twice.  It is visited
when this literal has become false, and from then on it keeps a watch which is false
for good.  Such a clause therefore never forces a literal.  It is only ever found to be
satisfied or to be falsified.

All other clauses are *steady*: they force whatever unit propagation asks for.  What a
propagator comes to know is thus a closure again, though one under the steady clauses
only, and calls fail exactly if this closure is contradictory or falsifies a clause.
No order of clauses, of literals or of calls occurs in this description.
-/

def opensTwice : List Literal → Bool
  | first :: second :: _ => second == first
  | _ => false

theorem opensTwice_literals_iff {clause : Clause} :
    opensTwice clause.literals = true ↔ clause.OpensTwice := by
  rcases clause with ⟨first, _ | ⟨second, rest⟩⟩
  · simp [opensTwice, Clause.literals, Clause.OpensTwice]
  · simp [opensTwice, Clause.literals, Clause.OpensTwice]

/-- The clauses which do not open with a repetition. -/
def steady (clauses : List (List Literal)) : List (List Literal) :=
  clauses.filter fun clause => !opensTwice clause

theorem mem_steady_iff {clauses : List (List Literal)} {clause : List Literal} :
    clause ∈ steady clauses ↔ clause ∈ clauses ∧ opensTwice clause = false := by
  simp [steady]

/-- What follows from the given literals by means of steady clauses. -/
abbrev SteadyConsequence (clauses : List (List Literal)) : (Literal → Prop) → Literal → Prop :=
  UnitConsequence (steady clauses)

/-- Whether the consequences by steady clauses are contradictory or falsify a clause. -/
def Refutes (clauses : List (List Literal)) (given : Literal → Prop) : Prop :=
  Contradictory (SteadyConsequence clauses given) ∨
    ∃ clause ∈ clauses, ∀ literal ∈ clause, SteadyConsequence clauses given (-literal)

theorem Refutes.mono {clauses : List (List Literal)} {given more : Literal → Prop}
    (le : ∀ literal, given literal → more literal) (refutes : Refutes clauses given) :
    Refutes clauses more := by
  rcases refutes with contradiction | ⟨clause, listed, allFalse⟩
  · exact Or.inl (UnitConsequence.contradictory_mono le contradiction)
  · exact Or.inr ⟨clause, listed, fun literal member => (allFalse literal member).mono le⟩

theorem Formula.literals_mem_steady {formula : Formula} {id : ClauseId} {clause : Clause}
    (read : formula.clause id = .ok clause) (apart : ¬clause.OpensTwice) :
    clause.literals ∈ steady formula.lists := by
  rw [mem_steady_iff, ← Bool.not_eq_true, opensTwice_literals_iff]
  exact ⟨literals_mem_lists read, apart⟩

namespace Propagator

/-- What limits the units at every point of a drain.  They follow from the given literals
by steady clauses.  A clause which opens with a repetition has its first literal as its
first watch, and as its second one too unless the first watch is false and nothing will
come of that any more. -/
structure Limited (propagator : Propagator) (given : Literal → Prop) (lost : Literal)
    (remaining : List ClauseId) : Prop where
  follow : ∀ literal ∈ propagator.units,
    SteadyConsequence propagator.formula.lists given literal
  lost_false : remaining ≠ [] → -lost ∈ propagator.units ∧ -lost ∉ propagator.queue
  opening : ∀ {id first second clause},
    propagator.watches.standing id = .ok (.watched first second) →
      propagator.formula.clause id = .ok clause → clause.OpensTwice →
        first = clause.first ∧
          (second = clause.first ∨ ¬propagator.Attended lost remaining id clause.first)

theorem not_attended_iff {propagator : Propagator} {lost literal : Literal}
    {remaining : List ClauseId} {id : ClauseId} :
    ¬propagator.Attended lost remaining id literal ↔
      -literal ∈ propagator.units ∧ -literal ∉ propagator.queue ∧
        ¬(literal = lost ∧ id ∈ remaining) := by
  rw [Attended, Classical.not_imp, not_or]

theorem limited_fresh (formula : Formula) (given : Literal → Prop) (lost : Literal) :
    (fresh formula).Limited given lost [] where
  follow := by simp [fresh]
  lost_false := fun impossible => absurd rfl impossible
  opening := by
    intro id first second clause found read twice
    rcases Watches.standing_ofFormula.mp found with ⟨other, otherRead, initial⟩
    cases otherRead.symm.trans read
    rcases clause with ⟨opening, _ | ⟨next, rest⟩⟩
    · cases initial
    · cases initial
      exact ⟨rfl, Or.inl (Option.some.inj twice)⟩

namespace Limited

variable {propagator : Propagator} {given : Literal → Prop} {lost : Literal} {id : ClauseId}
  {remaining : List ClauseId}

theorem mono (limited : propagator.Limited given lost remaining) {more : Literal → Prop}
    (le : ∀ literal, given literal → more literal) : propagator.Limited more lost remaining :=
  { limited with follow := fun literal isUnit => (limited.follow literal isUnit).mono le }

theorem of_nil (limited : propagator.Limited given lost []) (other : Literal) :
    propagator.Limited given other [] where
  follow := limited.follow
  lost_false := fun impossible => absurd rfl impossible
  opening := by
    intro id first second clause found read twice
    simpa only [attended_nil] using limited.opening found read twice

/-- The partner of a clause that opens with a repetition is its first literal, which is
false and gets no attention any more. -/
theorem partner_of_opensTwice (limited : propagator.Limited given lost (id :: remaining))
    (fresh : id ∉ remaining) {standing : Standing} {partner : Literal} {clause : Clause}
    (sees : propagator.Sees lost id standing partner clause) (twice : clause.OpensTwice) :
    partner = clause.first ∧ ¬propagator.Attended lost remaining id clause.first := by
  rcases Standing.partner_eq_ok_iff.mp sees.partner_eq with rfl | ⟨rfl, notLost⟩
  · -- The first watch was lost just now, so the second one cannot have been moved before.
    rcases limited.opening sees.standing_eq sees.clause_eq twice with ⟨atFirst, same | unattended⟩
    · have lostFalse := limited.lost_false (List.cons_ne_nil id remaining)
      rw [atFirst] at lostFalse
      exact ⟨same, not_attended_iff.mpr ⟨lostFalse.1, lostFalse.2, fun waits => fresh waits.2⟩⟩
    · have waits := (not_attended_iff.mp unattended).2.2
      exact absurd ⟨atFirst.symm, List.mem_cons_self⟩ waits
  · rcases limited.opening sees.standing_eq sees.clause_eq twice with ⟨atFirst, same | unattended⟩
    · exact absurd (atFirst.trans same.symm) notLost
    · have unattended := not_attended_iff.mp unattended
      refine ⟨atFirst, not_attended_iff.mpr ⟨unattended.1, unattended.2.1, ?_⟩⟩
      exact fun waits => unattended.2.2 ⟨waits.1, List.mem_cons_of_mem id waits.2⟩

end Limited
end Propagator

/-! ## What keeps a propagator limited -/

namespace Round

variable {round : Round} {given : Literal → Prop} {lost : Literal} {id : ClauseId}
  {remaining : List ClauseId}

/-- A watch that gets no attention does not get any from a new unit. -/
theorem not_attended_enqueue {unit literal : Literal} (new : unit ∉ round.propagator.units)
    (unattended : ¬round.propagator.Attended lost remaining id literal) :
    ¬(round.enqueue unit).propagator.Attended lost remaining id literal := by
  rcases Propagator.not_attended_iff.mp unattended with ⟨isFalse, notWaiting, settled⟩
  refine Propagator.not_attended_iff.mpr ⟨mem_units_enqueue.mpr (Or.inr isFalse), ?_, settled⟩
  intro waits
  rcases List.mem_append.mp waits with isOld | isNew
  · exact notWaiting isOld
  · exact new (List.mem_singleton.mp isNew ▸ isFalse)

theorem limited_enqueue (limited : round.propagator.Limited given lost remaining) {unit : Literal}
    (new : unit ∉ round.propagator.units)
    (follows : SteadyConsequence round.propagator.formula.lists given unit) :
    (round.enqueue unit).propagator.Limited given lost remaining where
  follow := by
    intro literal isUnit
    rcases mem_units_enqueue.mp isUnit with rfl | isOld
    · exact follows
    · exact limited.follow literal isOld
  lost_false := by
    intro remains
    have lostFalse := limited.lost_false remains
    refine ⟨mem_units_enqueue.mpr (Or.inr lostFalse.1), ?_⟩
    intro waits
    rcases List.mem_append.mp waits with isOld | isNew
    · exact lostFalse.2 isOld
    · exact new (List.mem_singleton.mp isNew ▸ lostFalse.1)
  opening := by
    intro id first second clause found read twice
    have before := limited.opening found read twice
    exact ⟨before.1, before.2.imp_right (not_attended_enqueue new)⟩

/-- The literal which is lost when a unit is popped waits no more, and nothing that
waited for no visit begins to wait for one. -/
theorem limited_pop (guarded : round.propagator.Guarded lost [])
    (limited : round.propagator.Limited given lost []) {unit : Literal} {waiting : List Literal}
    (queue : round.propagator.queue = unit :: waiting) :
    ((round.dequeue unit waiting).dropWatchers (-unit)).propagator.Limited given (-unit)
      (round.propagator.watches.take (-unit)).1 where
  follow := limited.follow
  lost_false := by
    intro _
    have nodup := guarded.queue_nodup
    rw [queue, List.nodup_cons] at nodup
    rw [Literal.neg_neg]
    exact ⟨guarded.queue_units unit (by rw [queue]; exact List.mem_cons_self), nodup.1⟩
  opening := by
    intro id first second clause found read twice
    have before := limited.opening found read twice
    refine ⟨before.1, before.2.imp_right ?_⟩
    intro unattended
    rcases Propagator.not_attended_iff.mp unattended with ⟨isFalse, notWaiting, _⟩
    rw [queue, List.mem_cons, not_or] at notWaiting
    refine Propagator.not_attended_iff.mpr ⟨isFalse, notWaiting.2, ?_⟩
    rintro ⟨isLost, _⟩
    exact notWaiting.1 (by rw [isLost, Literal.neg_neg])

/-- The first remaining clause gets another standing.  Nothing changes for the others. -/
theorem limited_settle (limited : round.propagator.Limited given lost (id :: remaining))
    {changed : Watches} (after : Standing)
    (standings : ∀ other, changed.standing other =
      if other = id then .ok after else round.propagator.watches.standing other)
    (opening : ∀ {first second clause}, after = .watched first second →
      round.propagator.formula.clause id = .ok clause → clause.OpensTwice →
        first = clause.first ∧ ¬round.propagator.Attended lost remaining id clause.first) :
    ({ round.propagator with watches := changed } : Propagator).Limited given lost remaining where
  follow := limited.follow
  lost_false := fun _ => limited.lost_false (List.cons_ne_nil id remaining)
  opening := by
    intro other first second clause found read twice
    have foundHere : changed.standing other = .ok (.watched first second) := found
    rw [standings other] at foundHere
    split at foundHere
    · rename_i here
      subst here
      have settled := opening (Except.ok.inj foundHere) read twice
      exact ⟨settled.1, Or.inr settled.2⟩
    · have before := limited.opening foundHere read twice
      refine ⟨before.1, before.2.imp_right ?_⟩
      intro unattended
      rcases Propagator.not_attended_iff.mp unattended with ⟨isFalse, notWaiting, notLost⟩
      refine Propagator.not_attended_iff.mpr ⟨isFalse, notWaiting, ?_⟩
      exact fun waits => notLost ⟨waits.1, List.mem_cons_of_mem id waits.2⟩

theorem limited_retired (limited : round.propagator.Limited given lost (id :: remaining))
    {standing : Standing} (found : round.propagator.watches.standing id = .ok standing) :
    (round.retired id standing).propagator.Limited given lost remaining := by
  have settled := limited_settle limited .retired
    (Watches.standing_retire (Watches.standing_lt found) standing) Standing.noConfusion
  exact { settled with }

theorem limited_rewatched (limited : round.propagator.Limited given lost (id :: remaining))
    (fresh : id ∉ remaining) {standing : Standing} {partner : Literal} {clause : Clause}
    (sees : round.propagator.Sees lost id standing partner clause) (replacement : Literal) :
    (round.rewatched id partner replacement).propagator.Limited given lost remaining := by
  have settled := limited_settle limited (.watched partner replacement)
    (Watches.standing_watch (Watches.standing_lt sees.standing_eq) partner replacement) (by
      intro first second other same read twice
      cases same
      cases sees.clause_eq.symm.trans read
      exact limited.partner_of_opensTwice fresh sees twice)
  exact { settled with }

/-- A clause that opens with a repetition forces nothing, because its partner is false. -/
theorem not_opensTwice_of_forced (limited : round.propagator.Limited given lost (id :: remaining))
    (fresh : id ∉ remaining) {standing : Standing} {partner : Literal} {clause : Clause}
    (sees : round.propagator.Sees lost id standing partner clause)
    (notFalse : -partner ∉ round.propagator.units) : ¬clause.OpensTwice := by
  intro twice
  rcases limited.partner_of_opensTwice fresh sees twice with ⟨rfl, unattended⟩
  exact notFalse (Propagator.not_attended_iff.mp unattended).1

theorem Visited.limited (guarded : round.propagator.Guarded lost (id :: remaining))
    (limited : round.propagator.Limited given lost (id :: remaining)) {next : Round}
    (visited : Visited round lost id (.ok next)) :
    next.propagator.Limited given lost remaining := by
  have fresh := (List.nodup_cons.mp guarded.coherent.remaining_nodup).1
  have counted : round.countVisit.propagator.Limited given lost (id :: remaining) :=
    { limited with }
  cases visited with
  | satisfied sees => exact limited_retired counted sees.standing_eq
  | moved sees =>
      exact limited_rewatched counted fresh ⟨sees.standing_eq, sees.partner_eq, sees.clause_eq⟩ _
  | @forced standing partner clause sees member notTrue notFalse othersFalse =>
      have apart := not_opensTwice_of_forced limited fresh sees notFalse
      have follows : SteadyConsequence round.propagator.formula.lists given partner :=
        .forced (Formula.literals_mem_steady sees.clause_eq apart) member fun other otherMem different =>
          limited.follow _ (othersFalse other otherMem different)
      have noted : (round.countVisit.note (.forces id partner)).propagator.Limited given lost
          (id :: remaining) := { limited with }
      exact limited_enqueue (limited_retired noted sees.standing_eq) notTrue follows

end Round

theorem Point.limited {start round : Round} {given : Literal → Prop} {lost : Literal}
    {remaining : List ClauseId} (guarded : ∀ lost, start.propagator.Guarded lost [])
    (initially : ∀ lost, start.propagator.Limited given lost [])
    (point : Point start round lost remaining) : round.propagator.Limited given lost remaining := by
  refine point.preserves
    (motive := fun round lost remaining => round.propagator.Limited given lost remaining)
    guarded initially ?_ ?_
  · intro round lost unit waiting before limited queue
    exact Round.limited_pop before limited queue
  · intro round next lost id remaining before limited visited
    exact visited.limited before limited

namespace Propagator

variable {propagator : Propagator} {formula : Formula} {given : Literal → Prop}

theorem limited_of_learnAll (limited : ∀ lost, propagator.Limited given lost [])
    (literals : List Literal) :
    (∀ {learnt}, (Round.start propagator).learnAll literals = .ok learnt →
      ∀ lost, learnt.propagator.Limited (fun literal => given literal ∨ literal ∈ literals) lost []) ∧
    (∀ {halt}, (Round.start propagator).learnAll literals = .error halt →
      (∀ lost, halt.round.propagator.Limited (fun literal => given literal ∨ literal ∈ literals)
        lost []) ∧
      ∃ literal ∈ literals, halt.stop = .conflict (.complementaryUnit literal) ∧
        -literal ∈ halt.round.propagator.units) := by
  have learning := Round.learnAll_preserves
    (motive := fun round => ∀ lost,
      round.propagator.Limited (fun literal => given literal ∨ literal ∈ literals) lost [])
    literals (.start propagator)
    (fun member new _ before lost =>
      Round.limited_enqueue (before lost) new (.given (Or.inr member)))
    (fun lost => (limited lost).mono fun _ => Or.inl)
  exact learning

/-- A call that ends well leaves the units limited, and any other call has found the
given literals refuted. -/
theorem Settled.derive_limited (settled : propagator.Settled formula given)
    (limited : ∀ lost, propagator.Limited given lost []) (literals : List Literal) :
    ((∃ derived, (propagator.derive literals).result = .ok derived) ∧
      ∀ lost, (propagator.derive literals).propagator.Limited
        (fun literal => given literal ∨ literal ∈ literals) lost []) ∨
    ((∃ conflict, (propagator.derive literals).result = .error (.conflict conflict)) ∧
      Refutes formula.lists fun literal => given literal ∨ literal ∈ literals) := by
  have learning := limited_of_learnAll limited literals
  have known := settled.learnAll literals
  have learntGuarded := guarded_of_learnAll settled.guarded literals
  have outcome := derive_outcome settled.guarded literals
  generalize propagator.derive literals = answer at outcome ⊢
  cases outcome with
  | settled learnt point _ =>
      have atEnd := point.limited (learntGuarded.1 learnt) (learning.1 learnt)
      exact Or.inl ⟨⟨_, rfl⟩, atEnd.of_nil⟩
  | @refused round literal refusal =>
      rcases learning.2 refusal with ⟨before, other, member, same, negated⟩
      cases same
      have formula_eq : round.propagator.formula = formula := (known.2 refusal).1.1
      have negationFollows := (before literal).follow _ negated
      rw [formula_eq] at negationFollows
      exact Or.inr ⟨⟨_, rfl⟩, Or.inl ⟨literal, .given (Or.inr member), negationFollows⟩⟩
  | @falsified learnt round lost partner id remaining learnt_eq point visited =>
      have before := point.limited (learntGuarded.1 learnt_eq) (learning.1 learnt_eq)
      have formula_eq : round.propagator.formula = formula :=
        (point.follows (learntGuarded.1 learnt_eq) (known.1 learnt_eq).2).1
      cases visited with
      | falsified sees _ allFalse =>
          have read := sees.clause_eq
          have follow := before.follow
          rw [formula_eq] at read follow
          refine Or.inr ⟨⟨_, rfl⟩, Or.inr ⟨_, Formula.literals_mem_lists read, ?_⟩⟩
          exact fun literal member => follow _ (allFalse literal member)

/-- A propagator is made, with limited units, unless the unit clauses are refuted. -/
theorem ofFormula_limited (formula : Formula) :
    (∃ propagator, (ofFormula formula).result = .ok propagator ∧
      ∀ lost, propagator.Limited (formula.Given []) lost []) ∨
    ((∃ conflict, (ofFormula formula).result = .error (.conflict conflict)) ∧
      Refutes formula.lists (formula.Given [])) := by
  have derived := (settled_fresh formula).derive_limited (limited_fresh formula _)
    formula.unitLiterals
  rw [given_nil] at derived
  rcases derived with ⟨⟨units, ended⟩, limited⟩ | ⟨⟨conflict, ended⟩, refutes⟩
  · exact Or.inl ⟨_, by rw [ofFormula, ended], limited⟩
  · exact Or.inr ⟨⟨conflict, by rw [ofFormula, ended]⟩, refutes⟩

end Propagator

/-- A reached propagator has limited units while it is consistent, and afterwards the
given literals are refuted. -/
theorem History.limited_or_refutes {formula : Formula} {assumptions : List Literal}
    {propagator : Propagator} (history : History formula assumptions propagator) :
    (propagator.inconsistent = false →
      ∀ lost, propagator.Limited (formula.Given assumptions) lost []) ∧
    (propagator.inconsistent = true → Refutes formula.lists (formula.Given assumptions)) := by
  induction history with
  | made isMade =>
      have settled := Propagator.settled_of_ofFormula isMade
      rcases Propagator.ofFormula_limited formula with ⟨other, made, limited⟩ | ⟨⟨conflict, failed⟩, _⟩
      · cases made.symm.trans isMade
        exact ⟨fun _ => limited, fun impossible => absurd impossible (by simp [settled.consistent])⟩
      · cases failed.symm.trans isMade
  | @assumed assumptions propagator literals before ih =>
      rcases before.settled_or_broken with settled | broken
      · have derived := settled.derive_limited (ih.1 settled.consistent) literals
        rw [Propagator.given_append] at derived
        have answer := settled.assume_eq_derive literals
        rcases settled.assume literals with ⟨⟨units, ended⟩, after⟩ | ⟨⟨conflict, ended⟩, after⟩
        · refine ⟨?_, fun impossible => absurd impossible (by simp [after.consistent])⟩
          rcases derived with ⟨_, limited⟩ | ⟨⟨conflict, failed⟩, _⟩
          · intro _
            rw [answer.1]
            exact limited
          · cases (answer.2.symm.trans ended).symm.trans failed
        · refine ⟨fun impossible => absurd impossible (by simp [after.inconsistent]), ?_⟩
          rcases derived with ⟨⟨units, went⟩, _⟩ | ⟨_, refutes⟩
          · cases (answer.2.symm.trans ended).symm.trans went
          · exact fun _ => refutes
      · have after := (broken.assume literals).2
        refine ⟨fun impossible => absurd impossible (by simp [after.inconsistent]), ?_⟩
        intro _
        rw [← Propagator.given_append]
        exact (ih.2 broken.inconsistent).mono fun _ => Or.inl

/-! ## The limit of propagation -/

namespace Propagator.Settled

variable {propagator : Propagator} {formula : Formula} {given : Literal → Prop}

/-- The units of a settled propagator whose units are limited are all of the limit. -/
theorem mem_units_iff_steady (settled : propagator.Settled formula given)
    (units_given : ∀ literal ∈ formula.unitLiterals, given literal)
    (limited : ∀ lost, propagator.Limited given lost []) {literal : Literal} :
    literal ∈ propagator.units ↔ SteadyConsequence formula.lists given literal := by
  constructor
  · intro isUnit
    have follows := (limited literal).follow literal isUnit
    rwa [settled.formula_eq] at follows
  · intro follows
    induction follows with
    | given isGiven => exact settled.given_units _ isGiven
    | forced isSteady _ _ ih =>
        rcases mem_steady_iff.mp isSteady with ⟨listed, notTwice⟩
        rcases Formula.mem_lists_iff.mp listed with ⟨id, clause, read, rfl⟩
        have apart : ¬clause.OpensTwice := by
          rw [← opensTwice_literals_iff, notTwice]
          exact Bool.noConfusion
        exact settled.mem_units_of_forced units_given read apart ih

theorem not_refutes (settled : propagator.Settled formula given)
    (units_given : ∀ literal ∈ formula.unitLiterals, given literal)
    (limited : ∀ lost, propagator.Limited given lost []) : ¬Refutes formula.lists given := by
  rintro (⟨literal, follows, negationFollows⟩ | ⟨clause, listed, allFalse⟩)
  · exact (settled.guarded default).units_consistent literal
      ((settled.mem_units_iff_steady units_given limited).mpr follows)
      ((settled.mem_units_iff_steady units_given limited).mpr negationFollows)
  · rcases settled.spares units_given clause listed with ⟨literal, member, free⟩
    exact free ((settled.mem_units_iff_steady units_given limited).mpr (allFalse literal member))

end Propagator.Settled

/-- A branch of a session went well exactly if what was given is not refuted, and then its
units are the consequences by steady clauses. -/
theorem Branch.Reached.limit {branch : Branch} {formula : Formula}
    (reached : branch.Reached formula) :
    (branch.wentWell = true ↔ ¬Refutes formula.lists (formula.Given branch.assumptions)) ∧
    (branch.wentWell = true → ∀ literal, literal ∈ branch.propagator.units ↔
      SteadyConsequence formula.lists (formula.Given branch.assumptions) literal) := by
  have units_given := formula.units_given branch.assumptions
  have limits := reached.history.limited_or_refutes
  cases well : branch.wentWell with
  | true =>
      have settled := reached.settled well
      have limited := limits.1 settled.consistent
      exact ⟨⟨fun _ => settled.not_refutes units_given limited, fun _ => rfl⟩,
        fun _ literal => settled.mem_units_iff_steady units_given limited⟩
  | false =>
      have refutes := limits.2 (reached.broken well).inconsistent
      exact ⟨⟨fun impossible => Bool.noConfusion impossible, fun free => absurd refutes free⟩,
        fun impossible => Bool.noConfusion impossible⟩

end UnitPropagation
