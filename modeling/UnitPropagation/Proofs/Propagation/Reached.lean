import UnitPropagation.Meaning.Consequence
import UnitPropagation.Proofs.Propagation.Call
import UnitPropagation.Propagator.Session

namespace UnitPropagation

/-!
# Reached propagators

Every propagator that is reached from a formula is in one of two conditions.  It is
*settled*: no call has failed, nothing waits, and it is guarded.  Or it is *broken*:
a call has met a conflict, and then the literals known so far have contradictory
unit consequences.  In both conditions every unit is a unit consequence.

The clauses may repeat literals.  What is said about both conditions needs no
assumption on them.
-/

namespace Formula

def lists (formula : Formula) : List (List Literal) :=
  formula.toList.map Clause.literals

variable {formula : Formula}

theorem mem_toList_iff {clause : Clause} :
    clause ∈ formula.toList ↔ ∃ id, formula.clause id = .ok clause := by
  simp only [Watches.clause_eq_ok_iff]
  exact List.mem_iff_getElem?

theorem mem_toList {id : ClauseId} {clause : Clause} (read : formula.clause id = .ok clause) :
    clause ∈ formula.toList :=
  mem_toList_iff.mpr ⟨id, read⟩

theorem mem_lists_iff {list : List Literal} :
    list ∈ formula.lists ↔ ∃ id clause, formula.clause id = .ok clause ∧
      clause.literals = list := by
  rw [lists, List.mem_map]
  constructor
  · rintro ⟨clause, member, rfl⟩
    rcases mem_toList_iff.mp member with ⟨id, read⟩
    exact ⟨id, clause, read, rfl⟩
  · rintro ⟨id, clause, read, rfl⟩
    exact ⟨clause, mem_toList read, rfl⟩

theorem literals_mem_lists {id : ClauseId} {clause : Clause}
    (read : formula.clause id = .ok clause) : clause.literals ∈ formula.lists :=
  mem_lists_iff.mpr ⟨id, clause, read, rfl⟩

theorem nil_notMem_lists (formula : Formula) : [] ∉ formula.lists := by
  intro isEmpty
  rcases mem_lists_iff.mp isEmpty with ⟨_, clause, _, nothing⟩
  cases nothing

/-- If no clause repeats a literal, then none opens with a repetition. -/
theorem not_opensTwice_of_nodup (nodup : ∀ list ∈ formula.lists, list.Nodup) :
    ∀ clause ∈ formula.toList, ¬clause.OpensTwice :=
  fun _ member => Clause.not_opensTwice_of_nodup (nodup _ (List.mem_map_of_mem member))

theorem mem_unitLiterals_iff {literal : Literal} :
    literal ∈ formula.unitLiterals ↔ ∃ id clause, formula.clause id = .ok clause ∧
      clause.isUnit = true ∧ clause.first = literal := by
  rw [unitLiterals, List.mem_filterMap]
  constructor
  · rintro ⟨clause, member, picked⟩
    rcases mem_toList_iff.mp member with ⟨id, read⟩
    split at picked
    · rename_i isUnit
      cases picked
      exact ⟨id, clause, read, isUnit, rfl⟩
    · cases picked
  · rintro ⟨id, clause, read, isUnit, rfl⟩
    exact ⟨clause, mem_toList read, by rw [if_pos isUnit]⟩

/-- The literals from which everything follows that a propagator knows: those of the
unit clauses and the assumed ones. -/
def Given (formula : Formula) (assumptions : List Literal) (literal : Literal) : Prop :=
  literal ∈ formula.unitLiterals ∨ literal ∈ assumptions

/-- Unit clauses need not be given, since their literals are unit consequences anyway. -/
theorem unitConsequence_given_iff {assumptions : List Literal} {literal : Literal} :
    UnitConsequence formula.lists (formula.Given assumptions) literal ↔
      UnitConsequence formula.lists (· ∈ assumptions) literal := by
  constructor
  · intro follows
    apply UnitConsequence.of_unitConsequence
    apply follows.mono
    rintro unit (isUnit | assumed)
    · rcases mem_unitLiterals_iff.mp isUnit with ⟨id, ⟨first, rest⟩, read, alone, rfl⟩
      refine .forced (literals_mem_lists read) List.mem_cons_self ?_
      intro other member different
      cases List.isEmpty_iff.mp alone
      exact absurd (List.mem_singleton.mp member) different
    · exact .given assumed
  · intro follows
    exact follows.mono fun _ assumed => Or.inr assumed

end Formula

theorem UnitConsequence.contradictory_mono {clauses : List (List Literal)}
    {given more : Literal → Prop} (le : ∀ literal, given literal → more literal)
    (contradiction : Contradictory (UnitConsequence clauses given)) :
    Contradictory (UnitConsequence clauses more) := by
  rcases contradiction with ⟨literal, follows, negationFollows⟩
  exact ⟨literal, follows.mono le, negationFollows.mono le⟩

/-- Whether all units follow from the given literals. -/
def Round.Follows (round : Round) (formula : Formula) (given : Literal → Prop) : Prop :=
  round.propagator.formula = formula ∧
    ∀ literal ∈ round.propagator.units, UnitConsequence formula.lists given literal

namespace Round.Follows

variable {round : Round} {formula : Formula} {given : Literal → Prop}

theorem enqueue (follows : round.Follows formula given) {literal : Literal}
    (new : UnitConsequence formula.lists given literal) :
    (round.enqueue literal).Follows formula given := by
  refine ⟨follows.1, ?_⟩
  intro other isUnit
  rcases mem_units_enqueue.mp isUnit with rfl | isOld
  · exact new
  · exact follows.2 other isOld

/-- A forced literal follows, because the negations of the others do. -/
theorem visited (follows : round.Follows formula given) {next : Round} {lost : Literal}
    {id : ClauseId} (visited : Visited round lost id (.ok next)) : next.Follows formula given := by
  cases visited with
  | satisfied => exact follows
  | moved => exact follows
  | forced sees member _ _ othersFalse =>
      have read := sees.clause_eq
      rw [follows.1] at read
      have new : UnitConsequence formula.lists given _ :=
        .forced (Formula.literals_mem_lists read) member fun other otherMem different =>
          follows.2 _ (othersFalse other otherMem different)
      exact @enqueue ((round.countVisit.note _).retired id _) _ _ follows _ new

/-- A clause whose literals are all false makes the consequences contradictory. -/
theorem contradictory_of_falsified (follows : round.Follows formula given) {id : ClauseId}
    {clause : Clause} (read : round.propagator.formula.clause id = .ok clause)
    (allFalse : ∀ literal ∈ clause.literals, -literal ∈ round.propagator.units) :
    Contradictory (UnitConsequence formula.lists given) := by
  rw [follows.1] at read
  have member : clause.first ∈ clause.literals := List.mem_cons_self
  refine ⟨clause.first, ?_, follows.2 _ (allFalse _ member)⟩
  exact .forced (Formula.literals_mem_lists read) member fun other otherMem _ =>
    follows.2 _ (allFalse other otherMem)

end Round.Follows

theorem Point.follows {start round : Round} {lost : Literal} {remaining : List ClauseId}
    {formula : Formula} {given : Literal → Prop}
    (guarded : ∀ lost, start.propagator.Guarded lost [])
    (initially : start.Follows formula given) (point : Point start round lost remaining) :
    round.Follows formula given := by
  refine point.preserves (motive := fun round _ _ => round.Follows formula given) guarded
    (fun _ => initially) ?_ ?_
  · intro round lost unit waiting _ before _
    exact before
  · intro round next lost id remaining _ before visited
    exact before.visited visited

namespace Propagator

/-! ## Settled and broken propagators -/

/-- The condition of a propagator after calls which all ended well. -/
structure Settled (propagator : Propagator) (formula : Formula) (given : Literal → Prop) :
    Prop where
  formula_eq : propagator.formula = formula
  consistent : propagator.inconsistent = false
  guarded : ∀ lost, propagator.Guarded lost []
  queue_eq : propagator.queue = []
  units_follow : ∀ literal ∈ propagator.units, UnitConsequence formula.lists given literal
  given_units : ∀ literal, given literal → literal ∈ propagator.units

/-- The condition of a propagator after a call which met a conflict. -/
structure Broken (propagator : Propagator) (formula : Formula) (given : Literal → Prop) :
    Prop where
  formula_eq : propagator.formula = formula
  inconsistent : propagator.inconsistent = true
  guarded : ∃ lost remaining, propagator.Guarded lost remaining
  units_follow : ∀ literal ∈ propagator.units, UnitConsequence formula.lists given literal
  contradictory : Contradictory (UnitConsequence formula.lists given)

variable {propagator : Propagator} {formula : Formula} {given : Literal → Prop}

theorem settled_fresh (formula : Formula) : (fresh formula).Settled formula fun _ => False where
  formula_eq := rfl
  consistent := rfl
  guarded := guarded_fresh formula
  queue_eq := rfl
  units_follow := by simp [fresh]
  given_units := by simp

/-- What is known after literals were learnt, or when learning was cut short. -/
theorem Settled.learnAll (settled : propagator.Settled formula given) (literals : List Literal) :
    (∀ {learnt}, (Round.start propagator).learnAll literals = .ok learnt →
      learnt.Extends (.start propagator) ∧
        learnt.Follows formula fun literal => given literal ∨ literal ∈ literals) ∧
    (∀ {halt}, (Round.start propagator).learnAll literals = .error halt →
      (halt.round.Follows formula fun literal => given literal ∨ literal ∈ literals) ∧
        ∃ literal ∈ literals, halt.stop = .conflict (.complementaryUnit literal) ∧
          -literal ∈ halt.round.propagator.units) := by
  have start : (Round.start propagator).Follows formula fun literal =>
      given literal ∨ literal ∈ literals :=
    ⟨settled.formula_eq, fun literal isUnit =>
      (settled.units_follow literal isUnit).mono fun _ => Or.inl⟩
  have learning := Round.learnAll_preserves
    (motive := fun round => round.Extends (Round.start propagator) ∧
      round.Follows formula fun literal => given literal ∨ literal ∈ literals)
    literals (.start propagator)
    (fun member _ _ before =>
      ⟨before.1.enqueue _, before.2.enqueue (.given (Or.inr member))⟩)
    ⟨.refl _, start⟩
  exact ⟨learning.1, fun stopped => ⟨(learning.2 stopped).1.2, (learning.2 stopped).2⟩⟩

variable {literals : List Literal} {learnt round : Round} {lost partner literal : Literal}
  {id : ClauseId} {remaining : List ClauseId}

theorem Settled.settled_of_drained (settled : propagator.Settled formula given)
    (learning : (Round.start propagator).learnAll literals = .ok learnt)
    (point : Point learnt round lost []) (queue : round.propagator.queue = []) :
    round.propagator.Settled formula fun literal => given literal ∨ literal ∈ literals := by
  have start := (settled.learnAll literals).1 learning
  have start_guarded := (guarded_of_learnAll settled.guarded literals).1 learning
  have extended := point.extends start_guarded
  have follows := point.follows start_guarded start.2
  have guarded := point.guarded start_guarded
  constructor
  case formula_eq => exact follows.1
  case consistent => exact (extended.trans start.1).inconsistent_eq.trans settled.consistent
  case guarded => exact guarded.of_nil
  case queue_eq => exact queue
  case units_follow => exact follows.2
  case given_units =>
    rintro literal (isGiven | assumed)
    · apply (extended.trans start.1).units_mono
      exact settled.given_units literal isGiven
    · apply extended.units_mono
      exact (Round.mem_units_of_learnAll learning literal).mpr (Or.inr assumed)

theorem Settled.broken_of_refused (settled : propagator.Settled formula given)
    (learning : (Round.start propagator).learnAll literals =
      .error ⟨.conflict (.complementaryUnit literal), round⟩) :
    round.propagator.contradicted.Broken formula
      fun literal => given literal ∨ literal ∈ literals := by
  rcases (settled.learnAll literals).2 learning with ⟨follows, other, member, same, negated⟩
  cases same
  have guarded := (guarded_of_learnAll settled.guarded literals).2 learning literal
  constructor
  case formula_eq => exact follows.1
  case inconsistent => rfl
  case guarded => exact ⟨literal, [], { guarded with }⟩
  case units_follow => exact follows.2
  case contradictory => exact ⟨literal, .given (Or.inr member), follows.2 _ negated⟩

theorem Settled.broken_of_falsified (settled : propagator.Settled formula given)
    (learning : (Round.start propagator).learnAll literals = .ok learnt)
    (point : Point learnt round lost (id :: remaining))
    (visited : Round.Visited round lost id
      (.error ⟨.conflict (.falsifiedClause id partner), round.countVisit⟩)) :
    round.countVisit.propagator.contradicted.Broken formula
      fun literal => given literal ∨ literal ∈ literals := by
  have start := (settled.learnAll literals).1 learning
  have start_guarded := (guarded_of_learnAll settled.guarded literals).1 learning
  have follows := point.follows start_guarded start.2
  have guarded := point.guarded start_guarded
  constructor
  case formula_eq => exact follows.1
  case inconsistent => rfl
  case guarded => exact ⟨lost, id :: remaining, { guarded with }⟩
  case units_follow => exact follows.2
  case contradictory =>
    cases visited with
    | falsified sees _ allFalse => exact follows.contradictory_of_falsified sees.clause_eq allFalse

/-- A call on a settled propagator either ends well and leaves it settled, or meets a
conflict and leaves it broken. -/
theorem Settled.derive (settled : propagator.Settled formula given) (literals : List Literal) :
    ((∃ derived, (propagator.derive literals).result = .ok derived) ∧
      (propagator.derive literals).propagator.Settled formula
        fun literal => given literal ∨ literal ∈ literals) ∨
    ((∃ conflict, (propagator.derive literals).result = .error (.conflict conflict)) ∧
      (propagator.derive literals).propagator.Broken formula
        fun literal => given literal ∨ literal ∈ literals) := by
  have outcome := derive_outcome settled.guarded literals
  generalize propagator.derive literals = answer at outcome ⊢
  cases outcome with
  | settled learning point queue =>
      exact Or.inl ⟨⟨_, rfl⟩, settled.settled_of_drained learning point queue⟩
  | refused learning => exact Or.inr ⟨⟨_, rfl⟩, settled.broken_of_refused learning⟩
  | falsified learning point visited =>
      exact Or.inr ⟨⟨_, rfl⟩, settled.broken_of_falsified learning point visited⟩

theorem given_nil (formula : Formula) :
    (fun literal => False ∨ literal ∈ formula.unitLiterals) = formula.Given [] := by
  funext literal
  simp [Formula.Given]

theorem given_append (formula : Formula) (assumptions literals : List Literal) :
    (fun literal => formula.Given assumptions literal ∨ literal ∈ literals) =
      formula.Given (assumptions ++ literals) := by
  funext literal
  simp [Formula.Given, or_assoc]

/-- A propagator is made, and settled, unless the unit clauses have contradictory consequences. -/
theorem ofFormula_cases (formula : Formula) :
    (∃ propagator, (ofFormula formula).result = .ok propagator ∧
      propagator.Settled formula (formula.Given [])) ∨
    (∃ conflict, (ofFormula formula).result = .error (.conflict conflict) ∧
      Contradictory (UnitConsequence formula.lists (formula.Given []))) := by
  have derived := (settled_fresh formula).derive formula.unitLiterals
  rw [given_nil] at derived
  rcases derived with ⟨⟨units, ended⟩, settled⟩ | ⟨⟨conflict, ended⟩, broken⟩
  · exact Or.inl ⟨_, by rw [ofFormula, ended], settled⟩
  · exact Or.inr ⟨conflict, by rw [ofFormula, ended], broken.contradictory⟩

theorem settled_of_ofFormula (made : (ofFormula formula).result = .ok propagator) :
    propagator.Settled formula (formula.Given []) := by
  rcases ofFormula_cases formula with ⟨other, result, settled⟩ | ⟨conflict, result, _⟩
  · cases made.symm.trans result
    exact settled
  · cases made.symm.trans result

/-- A call that is not refused outright has the outcome of the derivation. -/
theorem Settled.assume_eq_derive (settled : propagator.Settled formula given)
    (literals : List Literal) :
    (propagator.assume literals).propagator = (propagator.derive literals).propagator ∧
      (propagator.assume literals).result = (propagator.derive literals).result := by
  rw [Propagator.assume, settled.consistent, settled.queue_eq]
  cases ended : (propagator.derive literals).result <;> simp [ended]

variable {assumptions : List Literal}

theorem Settled.assume (settled : propagator.Settled formula (formula.Given assumptions))
    (literals : List Literal) :
    ((∃ derived, (propagator.assume literals).result = .ok derived) ∧
      (propagator.assume literals).propagator.Settled formula
        (formula.Given (assumptions ++ literals))) ∨
    ((∃ conflict, (propagator.assume literals).result = .error (.conflict conflict)) ∧
      (propagator.assume literals).propagator.Broken formula
        (formula.Given (assumptions ++ literals))) := by
  have derived := settled.derive literals
  rw [given_append] at derived
  rw [Propagator.assume, settled.consistent, settled.queue_eq]
  rcases derived with ⟨⟨units, ended⟩, after⟩ | ⟨⟨conflict, ended⟩, after⟩
  · refine Or.inl ⟨⟨units, ?_⟩, ?_⟩ <;> simp [ended, after]
  · refine Or.inr ⟨⟨conflict, ?_⟩, ?_⟩ <;> simp [ended, after]

theorem Broken.assume (broken : propagator.Broken formula (formula.Given assumptions))
    (literals : List Literal) :
    (propagator.assume literals).result = .error (.conflict .inconsistentState) ∧
      (propagator.assume literals).propagator.Broken formula
        (formula.Given (assumptions ++ literals)) := by
  rw [assume_of_inconsistent broken.inconsistent]
  refine ⟨rfl, ?_⟩
  rw [← given_append]
  exact { broken with
    units_follow := fun literal isUnit => (broken.units_follow literal isUnit).mono fun _ => Or.inl
    contradictory := UnitConsequence.contradictory_mono (fun _ => Or.inl) broken.contradictory }

end Propagator

/-- Every propagator that can be reached is settled or broken. -/
theorem History.settled_or_broken {formula : Formula} {assumptions : List Literal}
    {propagator : Propagator} (history : History formula assumptions propagator) :
    propagator.Settled formula (formula.Given assumptions) ∨
      propagator.Broken formula (formula.Given assumptions) := by
  induction history with
  | made isMade => exact Or.inl (Propagator.settled_of_ofFormula isMade)
  | assumed literals _ ih =>
      rcases ih with settled | broken
      · exact (settled.assume literals).imp And.right And.right
      · exact Or.inr (broken.assume literals).2

/-! ## The branches of a session -/

/-- What holds of every branch of a session: it has a history, and it went well as
long as the propagator is consistent. -/
structure Branch.Reached (branch : Branch) (formula : Formula) : Prop where
  history : History formula branch.assumptions branch.propagator
  wentWell_eq : branch.wentWell = !branch.propagator.inconsistent

namespace Branch

variable {branch : Branch} {formula : Formula}

theorem reached_made {propagator : Propagator}
    (isMade : (Propagator.ofFormula formula).result = .ok propagator) :
    (made propagator).Reached formula where
  history := .made isMade
  wentWell_eq := by rw [made, (Propagator.settled_of_ofFormula isMade).consistent]; rfl

theorem Reached.assume (reached : branch.Reached formula) (literals : List Literal) :
    (branch.assume literals).Reached formula where
  history := .assumed literals reached.history
  wentWell_eq := by
    simp only [Branch.assume, reached.wentWell_eq]
    rcases reached.history.settled_or_broken with settled | broken
    · rcases settled.assume literals with ⟨⟨derived, ended⟩, after⟩ | ⟨⟨conflict, ended⟩, after⟩
      · simp [settled.consistent, ended, after.consistent, Except.toBool]
      · simp [ended, after.inconsistent, Except.toBool]
    · simp [broken.inconsistent, (broken.assume literals).2.inconsistent]

theorem Reached.assumeAll (reached : branch.Reached formula) (batches : List (List Literal)) :
    (branch.assumeAll batches).Reached formula := by
  induction batches generalizing branch with
  | nil => exact reached
  | cons literals batches ih => exact ih (reached.assume literals)

theorem Reached.formula_eq (reached : branch.Reached formula) : branch.propagator.formula = formula := by
  rcases reached.history.settled_or_broken with settled | broken
  · exact settled.formula_eq
  · exact broken.formula_eq

theorem Reached.settled (reached : branch.Reached formula) (well : branch.wentWell = true) :
    branch.propagator.Settled formula (formula.Given branch.assumptions) := by
  rcases reached.history.settled_or_broken with settled | broken
  · exact settled
  · rw [reached.wentWell_eq, broken.inconsistent] at well
    cases well

theorem Reached.broken (reached : branch.Reached formula) (ill : branch.wentWell = false) :
    branch.propagator.Broken formula (formula.Given branch.assumptions) := by
  rcases reached.history.settled_or_broken with settled | broken
  · rw [reached.wentWell_eq, settled.consistent] at ill
    cases ill
  · exact broken

/-- Every branch is guarded at some point of a drain, whether or not it went well. -/
theorem Reached.guarded (reached : branch.Reached formula) :
    ∃ lost remaining, branch.propagator.Guarded lost remaining := by
  rcases reached.history.settled_or_broken with settled | broken
  · exact ⟨default, [], settled.guarded default⟩
  · exact broken.guarded

theorem Reached.settled_of_consistent (reached : branch.Reached formula)
    (consistent : branch.propagator.inconsistent = false) :
    branch.propagator.Settled formula (formula.Given branch.assumptions) := by
  apply reached.settled
  rw [reached.wentWell_eq, consistent]
  rfl

theorem assumptions_assumeAll (branch : Branch) (batches : List (List Literal)) :
    (branch.assumeAll batches).assumptions = branch.assumptions ++ batches.flatten := by
  induction batches generalizing branch with
  | nil => simp [assumeAll]
  | cons literals batches ih =>
      have step : branch.assumeAll (literals :: batches) = (branch.assume literals).assumeAll batches :=
        rfl
      rw [step, ih (branch.assume literals)]
      simp [assume]

end Branch

theorem Session.reached {formula : Formula} {propagator : Propagator}
    (made : (Propagator.ofFormula formula).result = .ok propagator) (calls : List Call) :
    ∀ branch ∈ ((start propagator).run calls).branches, branch.Reached formula := by
  apply forall_run
  case assumed =>
    intro branch literals reached
    exact reached.assume literals
  case restarted =>
    intro branch fresh reached isMade
    rw [reached.formula_eq] at isMade
    exact Branch.reached_made isMade
  case made => exact Branch.reached_made made

/-! ## Propagators for lists of literals -/

namespace Formula

variable {strict : Bool} {clauses : List (List Literal)}

theorem size_of_ofLists {formula : Formula} (made : ofLists strict clauses = .ok formula) :
    formula.size = clauses.length := by
  rw [← literals_of_ofLists made, List.length_map]
  exact Array.length_toList.symm

/-- A list can be pushed if there is room for it, it is not empty, and strictness does
not forbid it. -/
theorem exists_push {formula : Formula} (room : formula.size < ClauseId.limit)
    {literals : List Literal} (nonempty : literals ≠ [])
    (distinct : strict = true → (literals.map Literal.var).Nodup) :
    ∃ longer, formula.push strict literals = .ok longer ∧ longer.size = formula.size + 1 := by
  cases literals with
  | nil => exact absurd rfl nonempty
  | cons first rest =>
      have space : formula.clauses.size < ClauseId.limit := room
      have accepted : (strict && Clause.repeatsVariable ⟨first, rest⟩) = false := by
        rw [Bool.and_eq_false_imp]
        intro isStrict
        rw [Clause.repeatsVariable, Clause.literals, decide_eq_true (distinct isStrict)]
        rfl
      refine ⟨⟨formula.clauses.push ⟨first, rest⟩, by rw [Table.size_push]; exact space⟩, ?_, ?_⟩
      · simp [push, Clause.ofList?, accepted, space]
      · exact Table.size_push _ _

/-- Nonempty lists make a formula, if they are not more than there are clause numbers.
They make a strict one, if moreover none of them mentions a variable twice. -/
theorem exists_ofLists_of_distinct (few : clauses.length ≤ ClauseId.limit)
    (nonempty : ∀ clause ∈ clauses, clause ≠ [])
    (distinct : strict = true → ∀ clause ∈ clauses, (clause.map Literal.var).Nodup) :
    ∃ formula, ofLists strict clauses = .ok formula ∧ formula.lists = clauses := by
  have general : ∀ (remaining : List (List Literal)) (start : Formula),
      start.size + remaining.length ≤ ClauseId.limit → (∀ clause ∈ remaining, clause ≠ []) →
        (strict = true → ∀ clause ∈ remaining, (clause.map Literal.var).Nodup) →
          ∃ formula, remaining.foldlM (push strict) start = .ok formula := by
    intro remaining
    induction remaining with
    | nil =>
        intro start _ _ _
        exact ⟨start, rfl⟩
    | cons literals remaining ih =>
        intro start room allNonempty allDistinct
        rcases List.forall_mem_cons.mp allNonempty with ⟨firstNonempty, othersNonempty⟩
        rw [List.length_cons] at room
        have space : start.size < ClauseId.limit := by omega
        rcases exists_push space firstNonempty
          (fun isStrict => allDistinct isStrict literals List.mem_cons_self) with
          ⟨longer, pushed, size⟩
        rw [List.foldlM_cons, pushed]
        apply ih longer (by omega) othersNonempty
        intro isStrict clause member
        exact allDistinct isStrict clause (List.mem_cons_of_mem _ member)
  rcases general clauses empty (by simpa [empty, Formula.size, Table.empty, Table.size] using few)
    nonempty distinct with ⟨formula, made⟩
  exact ⟨formula, made, literals_of_ofLists made⟩

theorem exists_ofLists (few : clauses.length ≤ ClauseId.limit)
    (nonempty : ∀ clause ∈ clauses, clause ≠ []) :
    ∃ formula, ofLists false clauses = .ok formula ∧ formula.lists = clauses :=
  exists_ofLists_of_distinct few nonempty fun isStrict => Bool.noConfusion isStrict

/-- The first empty list is a conflict, whatever stands behind it. -/
theorem ofLists_append_nil {front : List (List Literal)} {formula : Formula}
    (made : ofLists strict front = .ok formula) (room : front.length < ClauseId.limit)
    (behind : List (List Literal)) :
    ofLists strict (front ++ [] :: behind) = .error (.conflict (.emptyClause front.length)) := by
  have refused : formula.push strict [] = .error (.conflict (.emptyClause front.length)) := by
    simp [push, Clause.ofList?, ClauseId.ofIndex, size_of_ofLists made, room]
  rw [ofLists] at made
  rw [ofLists, List.foldlM_append, made]
  change List.foldlM (push strict) formula ([] :: behind) = _
  rw [List.foldlM_cons, refused]
  rfl

/-- If one of the lists is empty, they make no formula, but a conflict. -/
theorem exists_emptyClause (few : clauses.length ≤ ClauseId.limit)
    (distinct : strict = true → ∀ clause ∈ clauses, (clause.map Literal.var).Nodup)
    (hasEmpty : [] ∈ clauses) :
    ∃ id, ofLists strict clauses = .error (.conflict (.emptyClause id)) := by
  rcases List.eq_append_cons_of_mem hasEmpty with ⟨front, behind, rfl, isFirst⟩
  rw [List.length_append, List.length_cons] at few
  have nonempty : ∀ clause ∈ front, clause ≠ [] :=
    fun clause member isEmpty => isFirst (isEmpty ▸ member)
  rcases exists_ofLists_of_distinct (by omega) nonempty
    (fun isStrict clause member => distinct isStrict clause (List.mem_append_left _ member))
    with ⟨formula, made, _⟩
  exact ⟨front.length, ofLists_append_nil made (by omega) behind⟩

/-- Lists without repeated variables make a formula, strict or not, unless one is empty. -/
theorem exists_lists_or_emptyClause (strict : Bool) (few : clauses.length ≤ ClauseId.limit)
    (distinct : ∀ clause ∈ clauses, (clause.map Literal.var).Nodup) :
    ([] ∉ clauses ∧ ∃ formula, ofLists strict clauses = .ok formula ∧ formula.lists = clauses) ∨
      ([] ∈ clauses ∧ ∃ id, ofLists strict clauses = .error (.conflict (.emptyClause id))) := by
  by_cases hasEmpty : [] ∈ clauses
  · exact Or.inr ⟨hasEmpty, exists_emptyClause few (fun _ => distinct) hasEmpty⟩
  · refine Or.inl ⟨hasEmpty, exists_ofLists_of_distinct few ?_ fun _ => distinct⟩
    exact fun clause member isEmpty => hasEmpty (isEmpty ▸ member)

end Formula

theorem Propagator.result_ofLists {strict : Bool} {clauses : List (List Literal)} {formula : Formula}
    (made : Formula.ofLists strict clauses = .ok formula) :
    (ofLists strict clauses).result = (ofFormula formula).result := by
  rw [ofLists, made]

end UnitPropagation
