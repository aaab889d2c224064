import Mathlib.Data.List.Induction
import UnitPropagation.Proofs.Propagation.Line

namespace UnitPropagation

/-!
# Why a call fails

A call that fails says why, and what it says is true.  Among the literals that it is
given, the first one whose negation is a unit or was given before is refused, and nothing
is propagated then.  If there is no such literal, the only conflict left is a clause whose
literals are all false.  A literal is forced only while it is not assigned, so propagation
never meets the negation of a unit that it is about to add.

The literal that is reported with a falsified clause is the other watch of the clause.  If
the clause does not repeat a literal, this watch is attended, so its negation still waits
when the clause is found.
-/

/-- Whether the negation of a literal is known or stands among the literals before it. -/
def Opposed (known : Literal → Prop) (before : List Literal) (literal : Literal) : Prop :=
  known (-literal) ∨ -literal ∈ before

/-- Whether a literal is the first one in a list that is opposed. -/
def FirstOpposed (known : Literal → Prop) (literals : List Literal) (literal : Literal) : Prop :=
  ∃ before after, literals = before ++ literal :: after ∧ Opposed known before literal ∧
    ∀ front other rest, before = front ++ other :: rest → ¬Opposed known front other

variable {known : Literal → Prop}

/-- A literal that is passed over counts as known from then on. -/
theorem opposed_cons {head literal : Literal} {before : List Literal} :
    Opposed known (head :: before) literal ↔
      Opposed (fun other => other = head ∨ known other) before literal := by
  rw [Opposed, Opposed, List.mem_cons, or_left_comm, or_assoc]

/-- The first opposed literal is the head of the list, or the head is not opposed and it is
the first opposed one in the tail. -/
theorem firstOpposed_cons {head literal : Literal} {tail : List Literal} :
    FirstOpposed known (head :: tail) literal ↔
      (known (-head) ∧ literal = head) ∨
        (¬known (-head) ∧ FirstOpposed (fun other => other = head ∨ known other) tail literal) := by
  have atHead : ∀ other, Opposed known [] other ↔ known (-other) := by
    intro other
    simp [Opposed]
  constructor
  · rintro ⟨before, after, split, opposed, isFirst⟩
    cases before with
    | nil =>
        cases split
        exact Or.inl ⟨(atHead _).mp opposed, rfl⟩
    | cons opening before =>
        cases split
        refine Or.inr ⟨mt (atHead _).mpr (isFirst [] head before rfl), before, after, rfl,
          opposed_cons.mp opposed, ?_⟩
        intro front other rest earlier
        exact mt opposed_cons.mpr (isFirst (head :: front) other rest (congrArg _ earlier))
  · rintro (⟨opposed, rfl⟩ | ⟨free, before, after, rfl, opposed, isFirst⟩)
    · refine ⟨[], tail, rfl, (atHead _).mpr opposed, ?_⟩
      intro front other rest impossible
      simp at impossible
    · refine ⟨head :: before, after, rfl, opposed_cons.mpr opposed, ?_⟩
      intro front other rest earlier
      cases front with
      | nil =>
          cases earlier
          exact mt (atHead _).mp free
      | cons opening front =>
          cases earlier
          exact mt opposed_cons.mp (isFirst front other rest rfl)

theorem FirstOpposed.congr {other : Literal → Prop} (same : ∀ literal, known literal ↔ other literal)
    {literals : List Literal} {literal : Literal} :
    FirstOpposed known literals literal ↔ FirstOpposed other literals literal := by
  rw [funext fun literal => propext (same literal)]

namespace Round

/-- Learning is refused exactly for the first opposed literal. -/
theorem learnAll_refuses_iff {literals : List Literal} {literal : Literal} :
    ∀ {round : Round}, (∀ lost, round.propagator.Guarded lost []) →
      ((∃ last, round.learnAll literals = .error ⟨.conflict (.complementaryUnit literal), last⟩) ↔
        FirstOpposed (· ∈ round.propagator.units) literals literal) := by
  induction literals with
  | nil =>
      intro round _
      constructor
      · rintro ⟨last, refused⟩
        cases refused
      · rintro ⟨before, after, split, _⟩
        simp at split
  | cons head tail ih =>
      intro round guarded
      rw [firstOpposed_cons, learnAll]
      rcases round.learn_cases head with ⟨isUnit, learnt⟩ | ⟨negated, refused⟩ | ⟨new, free, learnt⟩
      · have free : -head ∉ round.propagator.units := (guarded head).units_consistent head isUnit
        have absorbed : ∀ other, other = head ∨ other ∈ round.propagator.units ↔
            other ∈ round.propagator.units := by
          intro other
          exact or_iff_right_of_imp fun same => same ▸ isUnit
        rw [learnt, FirstOpposed.congr absorbed, ← ih guarded]
        simp [free, bind, Except.bind]
      · rw [refused]
        simp [negated, bind, Except.bind, eq_comm]
      · rw [learnt, ← FirstOpposed.congr (fun _ => mem_units_enqueue),
          ← ih (fun lost => guarded_enqueue (guarded lost) new free)]
        simp [free, bind, Except.bind]

/-- Whether a round has done no more than to make units, all of which wait. -/
structure OnlyLearns (round : Round) (before : Propagator) : Prop where
  watches_eq : round.propagator.watches = before.watches
  processed_eq : round.propagator.tally.processedUnits = before.tally.processedUnits
  mem_units_iff : ∀ literal, literal ∈ round.propagator.units ↔
    literal ∈ before.units ∨ literal ∈ round.propagator.queue

theorem OnlyLearns.enqueue {round : Round} {before : Propagator} (only : round.OnlyLearns before)
    (literal : Literal) : (round.enqueue literal).OnlyLearns before where
  watches_eq := only.watches_eq
  processed_eq := only.processed_eq
  mem_units_iff := by
    intro other
    have waits : other ∈ (round.enqueue literal).propagator.queue ↔
        other ∈ round.propagator.queue ∨ other = literal := by
      change other ∈ round.propagator.queue ++ [literal] ↔ _
      rw [List.mem_append, List.mem_singleton]
    rw [mem_units_enqueue, only.mem_units_iff, waits, or_comm, or_assoc]

end Round

/-! ## Explained failures -/

/-- Whether an answer fails only for a clause whose literals are all false.  The reported
literal is one of them, and if the clause repeats none, its negation still waits. -/
def Answer.BlamesFalsified (answer : Answer) (before : Propagator) : Prop :=
  ∀ stop, answer.result = .error stop → ∃ id clause literal,
    stop = .conflict (.falsifiedClause id literal) ∧
    before.formula.clause id = .ok clause ∧ literal ∈ clause.literals ∧
    (∀ other ∈ clause.literals, -other ∈ answer.propagator.units) ∧
    (clause.literals.Nodup → -literal ∈ answer.propagator.queue)

/-- Whether an answer gives the right reason if it fails.  A literal is refused exactly if it
is the first opposed one, and then no unit is processed.  Otherwise it fails only if a clause
is falsified. -/
structure Answer.Explained (answer : Answer) (before : Propagator) (literals : List Literal) :
    Prop where
  refused_iff : ∀ literal, answer.result = .error (.conflict (.complementaryUnit literal)) ↔
    FirstOpposed (· ∈ before.units) literals literal
  untouched : ∀ literal, FirstOpposed (· ∈ before.units) literals literal →
    answer.propagator.watches = before.watches ∧
      answer.propagator.tally.processedUnits = before.tally.processedUnits ∧
      ∀ other, other ∈ answer.propagator.units ↔
        other ∈ before.units ∨ other ∈ answer.propagator.queue
  falsified : (∀ literal, ¬FirstOpposed (· ∈ before.units) literals literal) →
    answer.BlamesFalsified before

/-- Where no literal is opposed, it is enough to explain a falsified clause. -/
theorem Answer.explained_of_unopposed {answer : Answer} {before : Propagator}
    {literals : List Literal}
    (unopposed : ∀ literal, ¬FirstOpposed (· ∈ before.units) literals literal)
    (notRefused : ∀ literal, answer.result ≠ .error (.conflict (.complementaryUnit literal)))
    (falsified : answer.BlamesFalsified before) :
    answer.Explained before literals where
  refused_iff := fun literal => iff_of_false (notRefused literal) (unopposed literal)
  untouched := fun literal opposed => absurd opposed (unopposed literal)
  falsified := fun _ => falsified

/-- An explained failure is a refused literal or a falsified clause. -/
theorem Answer.Explained.stop_cases {answer : Answer} {before : Propagator}
    {literals : List Literal} (explained : answer.Explained before literals) {stop : Stop}
    (failed : answer.result = .error stop) :
    (∃ literal, stop = .conflict (.complementaryUnit literal)) ∨
      ∃ id literal, stop = .conflict (.falsifiedClause id literal) := by
  by_cases opposed : ∃ literal, FirstOpposed (· ∈ before.units) literals literal
  · rcases opposed with ⟨literal, isFirst⟩
    cases failed.symm.trans ((explained.refused_iff literal).mpr isFirst)
    exact Or.inl ⟨literal, rfl⟩
  · rcases explained.falsified (not_exists.mp opposed) stop failed with ⟨id, _, literal, same, _⟩
    exact Or.inr ⟨id, literal, same⟩

namespace Propagator

variable {propagator : Propagator} {formula : Formula} {given : Literal → Prop}

/-- The other watch of a clause that turns out to be falsified waits to be processed, unless
the clause repeats a literal. -/
theorem Guarded.partner_waits {round : Round} {lost partner : Literal} {id : ClauseId}
    {remaining : List ClauseId} (guarded : round.propagator.Guarded lost (id :: remaining))
    {standing : Standing} {clause : Clause}
    (sees : round.propagator.Sees lost id standing partner clause)
    (nodup : clause.literals.Nodup) (isFalse : -partner ∈ round.propagator.units) :
    -partner ∈ round.propagator.queue := by
  have apart := Clause.not_opensTwice_of_nodup nodup
  rcases Round.attended_partner guarded sees apart isFalse with waits | ⟨_, remains⟩
  · exact waits
  · exact absurd remains (List.nodup_cons.mp guarded.coherent.remaining_nodup).1

/-- A derivation on a settled propagator gives the right reason if it fails. -/
theorem Settled.derive_explained (settled : propagator.Settled formula given)
    (literals : List Literal) : (propagator.derive literals).Explained propagator literals := by
  have refuses : ∀ literal,
      (∃ last, (Round.start propagator).learnAll literals =
        .error ⟨.conflict (.complementaryUnit literal), last⟩) ↔
      FirstOpposed (· ∈ propagator.units) literals literal :=
    fun literal => Round.learnAll_refuses_iff settled.guarded
  have unopposed : ∀ {learnt}, (Round.start propagator).learnAll literals = .ok learnt →
      ∀ literal, ¬FirstOpposed (· ∈ propagator.units) literals literal := by
    intro learnt learning literal opposed
    rcases (refuses literal).mpr opposed with ⟨last, refused⟩
    cases learning.symm.trans refused
  have start : (Round.start propagator).OnlyLearns propagator :=
    ⟨rfl, rfl, by simp [Round.start, settled.queue_eq]⟩
  have learning := Round.learnAll_preserves
    (motive := fun round => round.Extends (.start propagator) ∧ round.OnlyLearns propagator)
    literals (.start propagator) (fun _ _ _ before => ⟨before.1.enqueue _, before.2.enqueue _⟩)
    ⟨.refl _, start⟩
  have outcome := derive_outcome settled.guarded literals
  generalize propagator.derive literals = answer at outcome ⊢
  cases outcome with
  | settled learnt =>
      refine Answer.explained_of_unopposed (unopposed learnt) ?_ ?_
      · intro literal failed
        cases failed
      · intro stop failed
        cases failed
  | @refused round literal refusal =>
      have isFirst : FirstOpposed (· ∈ propagator.units) literals literal :=
        (refuses literal).mp ⟨round, refusal⟩
      have only := (learning.2 refusal).1.2
      constructor
      case refused_iff =>
        intro other
        refine Iff.trans ?_ (refuses other)
        rw [refusal]
        simp
      case untouched => exact fun _ _ => ⟨only.watches_eq, only.processed_eq, only.mem_units_iff⟩
      case falsified => exact fun none => absurd isFirst (none literal)
  | @falsified learnt round lost partner id remaining learnt_eq point visited =>
      have learntGuarded := (guarded_of_learnAll settled.guarded literals).1 learnt_eq
      have guarded := point.guarded learntGuarded
      have extended := (point.extends learntGuarded).trans (learning.1 learnt_eq).1
      refine Answer.explained_of_unopposed (unopposed learnt_eq) ?_ ?_
      · intro literal failed
        cases failed
      · intro stop failed
        cases failed
        cases visited with
        | @falsified standing _ clause sees member allFalse =>
            have read : propagator.formula.clause id = .ok clause := by
              rw [← sees.clause_eq, extended.formula_eq]
              rfl
            refine ⟨id, clause, partner, rfl, read, member, allFalse, ?_⟩
            intro nodup
            exact guarded.partner_waits sees nodup (allFalse partner member)

/-- So does a call. -/
theorem Settled.assume_explained (settled : propagator.Settled formula given)
    (literals : List Literal) : (propagator.assume literals).Explained propagator literals := by
  have explained := settled.derive_explained literals
  rcases settled.assume_eq_derive literals with ⟨after, result⟩
  constructor
  case refused_iff => exact result ▸ explained.refused_iff
  case untouched => exact after ▸ explained.untouched
  case falsified =>
    intro unopposed
    rw [Answer.BlamesFalsified, after, result]
    exact explained.falsified unopposed

/-- A propagator is made by deriving the consequences of the unit clauses. -/
theorem result_ofFormula (formula : Formula) :
    (ofFormula formula).result =
      ((fresh formula).derive formula.unitLiterals).result.map fun _ =>
        ((fresh formula).derive formula.unitLiterals).propagator := by
  unfold ofFormula
  cases ended : ((fresh formula).derive formula.unitLiterals).result <;> simp [ended, Except.map]

end Propagator

/-! ## Empty clauses -/

namespace Formula

variable {formula : Formula} {id : ClauseId}

/-- Only an empty list is a conflict, and only while clause numbers are left. -/
theorem push_eq_conflict {strict : Bool} {literals : List Literal} {conflict : Conflict}
    (failed : formula.push strict literals = .error (.conflict conflict)) :
    literals = [] ∧ conflict = .emptyClause formula.size ∧ formula.size < ClauseId.limit := by
  cases literals with
  | nil =>
      by_cases room : formula.size < ClauseId.limit
      · simp only [push, Clause.ofList?, ClauseId.ofIndex, if_pos room] at failed
        cases failed
        exact ⟨rfl, rfl, room⟩
      · simp only [push, Clause.ofList?, ClauseId.ofIndex, if_neg room] at failed
        cases failed
  | cons first rest =>
      simp only [push, Clause.ofList?] at failed
      split at failed
      · cases failed
      · split at failed <;> cases failed

theorem exists_push_of_ofLists_eq_error {strict : Bool} {clauses : List (List Literal)}
    {stop : Stop} (failed : ofLists strict clauses = .error stop) :
    ∃ front literals behind formula, clauses = front ++ literals :: behind ∧
      ofLists strict front = .ok formula ∧ formula.push strict literals = .error stop := by
  induction clauses using List.reverseRecOn with
  | nil => cases failed
  | append_singleton clauses last ih =>
      rw [ofLists, List.foldlM_append] at failed
      cases made : ofLists strict clauses with
      | error other =>
          rw [← ofLists, made] at failed
          cases failed
          rcases ih made with ⟨front, literals, behind, formula, rfl, before, pushed⟩
          exact ⟨front, literals, behind ++ [last], formula, by simp, before, pushed⟩
      | ok formula =>
          rw [← ofLists, made] at failed
          refine ⟨clauses, last, [], formula, rfl, made, ?_⟩
          simp only [List.foldlM_cons, List.foldlM_nil, bind_pure] at failed
          exact failed

/-- An empty clause is reported exactly if it is the first one. -/
theorem ofLists_eq_emptyClause_iff {clauses : List (List Literal)} :
    ofLists false clauses = .error (.conflict (.emptyClause id)) ↔
      id < ClauseId.limit ∧ ∃ front behind,
        clauses = front ++ [] :: behind ∧ (∀ clause ∈ front, clause ≠ []) ∧ front.length = id := by
  constructor
  · intro failed
    rcases exists_push_of_ofLists_eq_error failed with
      ⟨front, literals, behind, formula, rfl, made, pushed⟩
    rcases push_eq_conflict pushed with ⟨rfl, same, inside⟩
    cases same
    have lists : formula.lists = front := literals_of_ofLists made
    refine ⟨inside, front, behind, rfl, ?_, (size_of_ofLists made).symm⟩
    rintro clause member rfl
    exact formula.nil_notMem_lists (lists ▸ member)
  · rintro ⟨inside, front, behind, rfl, nonempty, rfl⟩
    rcases exists_ofLists (Nat.le_of_lt inside) nonempty with ⟨formula, made, _⟩
    exact ofLists_append_nil made inside behind

end Formula

/-- Making a propagator meets an empty clause exactly if making the formula does. -/
theorem Propagator.ofLists_eq_emptyClause_iff {strict : Bool} {clauses : List (List Literal)}
    {id : ClauseId} :
    (ofLists strict clauses).result = .error (.conflict (.emptyClause id)) ↔
      Formula.ofLists strict clauses = .error (.conflict (.emptyClause id)) := by
  cases made : Formula.ofLists strict clauses with
  | ok formula =>
      refine iff_of_false ?_ (by simp)
      rw [result_ofLists made, result_ofFormula]
      have explained := (settled_fresh formula).derive_explained formula.unitLiterals
      cases ended : ((fresh formula).derive formula.unitLiterals).result with
      | ok derived => simp [Except.map]
      | error stop =>
          rcases explained.stop_cases ended with ⟨literal, rfl⟩ | ⟨clause, literal, rfl⟩ <;>
            simp [Except.map]
  | error stop => rcases stop with conflict | fault <;> simp [ofLists, made]

/-- Without strictness, an empty clause is reported exactly if there is one, and it is the
first one.  Whenever a propagator is made without empty clauses, or literals are assumed on
a consistent propagator of a session, a failure is explained: the first opposed literal is
refused before anything is propagated, and every other failure is a falsified clause, whose
reported literal still waits if the clause repeats none.  On an inconsistent propagator every
call is refused and changes nothing. -/
theorem failures_are_explained (clauses : List (List Literal)) :
    (∀ id, (Propagator.ofLists false clauses).result = .error (.conflict (.emptyClause id)) ↔
      id < ClauseId.limit ∧ ∃ front behind,
        clauses = front ++ [] :: behind ∧ (∀ clause ∈ front, clause ≠ []) ∧ front.length = id) ∧
    (clauses.length ≤ ClauseId.limit → (∀ clause ∈ clauses, clause ≠ []) →
      ∃ formula, formula.lists = clauses ∧
        let fresh := Propagator.fresh formula
        let answer := fresh.derive formula.unitLiterals
        (Propagator.ofLists false clauses).result = answer.result.map (fun _ => answer.propagator) ∧
          answer.Explained fresh formula.unitLiterals) ∧
    ∀ propagator, (Propagator.ofLists false clauses).result = .ok propagator →
      ∀ calls, ∀ branch ∈ ((Session.start propagator).run calls).branches, ∀ literals,
        (branch.propagator.inconsistent = false →
          (branch.propagator.assume literals).Explained branch.propagator literals) ∧
        (branch.propagator.inconsistent = true →
          branch.propagator.assume literals =
            ⟨.error (.conflict .inconsistentState), branch.propagator, #[]⟩) := by
  refine ⟨?_, ?_, ?_⟩
  · intro id
    rw [Propagator.ofLists_eq_emptyClause_iff, Formula.ofLists_eq_emptyClause_iff]
  · intro few nonempty
    rcases Formula.exists_ofLists few nonempty with ⟨formula, made, lists⟩
    refine ⟨formula, lists, ?_, (Propagator.settled_fresh formula).derive_explained _⟩
    rw [Propagator.result_ofLists made, Propagator.result_ofFormula]
  · intro propagator made calls branch member literals
    rcases Propagator.exists_formula_of_made made with ⟨formula, _, ofFormula⟩
    have reached := Session.reached ofFormula calls branch member
    refine ⟨?_, fun inconsistent => Propagator.assume_of_inconsistent inconsistent literals⟩
    intro consistent
    exact (reached.settled_of_consistent consistent).assume_explained literals

/-- An empty clause is reported with its number.  On a clone, a literal is refused because of
an assumed one, and a clause is falsified while the negation of its last literal waits. -/
theorem clone_explains_failures :
    let first : Literal := ⟨1, by decide, by decide⟩
    let second : Literal := ⟨2, by decide, by decide⟩
    let clauses := [[first, second], [first, -second]]
    (Propagator.ofLists false ([first, second] :: [] :: [[]])).result =
        .error (.conflict (.emptyClause 1)) ∧
    (∃ formula : Formula, formula.lists = clauses) ∧
    ∃ propagator, (Propagator.ofLists false clauses).result = .ok propagator ∧
      ∃ branch, ((Session.start propagator).run [.clone 0]).branches[1]? = some branch ∧
        FirstOpposed (· ∈ branch.propagator.units) [first, second, -first] (-first) ∧
        (branch.propagator.assume [-first]).result =
          .error (.conflict (.falsifiedClause 1 (-second))) ∧
        second ∈ (branch.propagator.assume [-first]).propagator.queue := by
  intro first second clauses
  have isEmpty := ((failures_are_explained ([first, second] :: [] :: [[]])).1 1).mpr
    ⟨by decide, [[first, second]], [[]], rfl, by decide, rfl⟩
  rcases failures_are_explained clauses with ⟨_, atCreation, inSession⟩
  rcases atCreation (by decide) (by decide) with ⟨formula, lists, _⟩
  refine ⟨isEmpty, ⟨formula, lists⟩, ?_⟩
  have failing : (Propagator.ofLists false clauses).result.toOption.any (fun propagator =>
      !propagator.inconsistent && decide (
        (propagator.assume [first, second, -first]).stop? =
          some (.conflict (.complementaryUnit (-first))) ∧
        (propagator.assume [-first]).stop? =
          some (.conflict (.falsifiedClause 1 (-second))))) = true := by
    decide +kernel
  rcases Except.exists_ok_of_any failing with ⟨propagator, made, failing⟩
  simp only [Bool.and_eq_true, Bool.not_eq_true', decide_eq_true_eq,
    Answer.stop?_eq_some_iff] at failing
  rcases failing with ⟨consistent, refused, falsified⟩
  have clone : ((Session.start propagator).run [.clone 0]).branches[1]? =
      some (.made propagator) := rfl
  have every := inSession propagator made _ _ (List.mem_of_getElem? clone)
  have opposed := (((every _).1 consistent).refused_iff _).mp refused
  have explained := (every [-first]).1 consistent
  have unopposed : ∀ literal, ¬FirstOpposed (· ∈ propagator.units) [-first] literal := by
    intro literal isFirst
    cases falsified.symm.trans ((explained.refused_iff literal).mpr isFirst)
  rcases explained.falsified unopposed _ falsified with ⟨id, clause, _, same, read, _, _, waits⟩
  cases same
  rcases Propagator.exists_formula_of_made made with ⟨formula, ofLists, ofFormula⟩
  have member : clause.literals ∈ formula.lists := by
    apply Formula.literals_mem_lists
    rw [← (Propagator.settled_of_ofFormula ofFormula).formula_eq]
    exact read
  have nodup : ∀ list ∈ clauses, list.Nodup := by decide
  rw [Formula.lists, Formula.literals_of_ofLists ofLists] at member
  have second_waits := waits (nodup _ member)
  rw [Literal.neg_neg] at second_waits
  exact ⟨propagator, made, _, clone, opposed, falsified, second_waits⟩

end UnitPropagation
