import UnitPropagation.Proofs.Propagation.Closure
import UnitPropagation.Propagator.Audit

namespace UnitPropagation

/-!
# Audits find nothing

An audit runs through lists and tables and complains about the first defect.  Here
each of its parts is shown to accept exactly if a condition holds of all entries,
and the conditions are gathered in `Balanced`.  A settled propagator is balanced if
no clause opens with a repetition, and so is every propagator of a session that is
consistent.

The lemmas about the parts of an audit are about all states, reached or not.
-/

theorem Except.bind_eq_ok_iff {ε α β : Type} {first : Except ε α} {next : α → Except ε β}
    {value : β} :
    (first >>= next) = .ok value ↔ ∃ between, first = .ok between ∧ next between = .ok value := by
  cases first with
  | ok between =>
      constructor
      · intro finished
        exact ⟨between, rfl, finished⟩
      · rintro ⟨other, same, finished⟩
        cases same
        exact finished
  | error stop =>
      constructor
      · intro finished
        cases finished
      · rintro ⟨other, same, _⟩
        cases same

theorem Except.unit_bind_eq_ok_iff {ε α : Type} {first : Except ε Unit} {next : Unit → Except ε α}
    {value : α} :
    (first >>= next) = .ok value ↔ first = .ok () ∧ next () = .ok value :=
  Except.bind_eq_ok_iff.trans ⟨fun ⟨(), finished⟩ => finished, fun finished => ⟨(), finished⟩⟩

theorem Except.forM_eq_ok_iff {ε α : Type} {check : α → Except ε Unit} {items : List α} :
    items.forM check = .ok () ↔ ∀ item ∈ items, check item = .ok () := by
  induction items with
  | nil =>
      constructor
      · intro _ item member
        cases member
      · intro _
        rfl
  | cons item items ih =>
      have unfolded : (item :: items).forM check = (check item >>= fun _ => items.forM check) := rfl
      rw [unfolded, Except.unit_bind_eq_ok_iff, List.forall_mem_cons, ih]

theorem Defect.demand_bind_eq_ok_iff {α : Type} {condition : Bool} {defect : Defect}
    {next : Unit → Except Defect α} {value : α} :
    (demand condition defect >>= next) = .ok value ↔ condition = true ∧ next () = .ok value := by
  rw [Except.unit_bind_eq_ok_iff, demand_eq_ok]

namespace Table

theorem forall_mem_entries_iff {α : Type} {table : Table α} {motive : Nat × α → Prop} :
    (∀ entry ∈ table.entries, motive entry) ↔
      ∀ key row, table.get key = .ok row → motive (key, row) := by
  constructor
  · intro holds key row read
    exact holds _ (mem_entries.mpr (get_eq_ok_iff.mp read))
  · rintro holds ⟨key, row⟩ member
    exact holds key row (get_eq_ok_iff.mpr (mem_entries.mp member))

end Table

namespace Watches

variable {watches : Watches} {formula : Formula}

theorem auditedStanding_eq_ok_iff {id : ClauseId} {standing : Standing} :
    watches.auditedStanding id = .ok standing ↔ watches.standing id = .ok standing := by
  rw [Watches.standing, Table.get_eq_ok_iff, auditedStanding]
  cases watches.standings.rows[id]? <;> simp

/-- A clause is listed under a literal if the literal has a list, and the clause is on it. -/
theorem isListed_iff_exists {literal : Literal} {id : ClauseId} :
    watches.isListed literal id = true ↔
      ∃ ids, watches.watchers[literal]? = some ids ∧ id ∈ ids := by
  rw [isListed_iff, watchersOf, Std.TreeMap.getD_eq_getD_getElem?]
  cases watches.watchers[literal]? with
  | none => simp
  | some ids => simp

theorem auditListings_eq_ok_iff :
    watches.auditListings = .ok () ↔ watches.ListsNonempty ∧
      ∀ literal id, watches.isListed literal id = true → watches.IsWatch id literal := by
  have listing : ∀ literal id,
      (watches.auditedStanding id >>= fun standing =>
        Defect.demand (standing.isWatchedBy literal) (.strayListing id literal)) = .ok () ↔
      watches.IsWatch id literal := by
    intro literal id
    rw [Except.bind_eq_ok_iff]
    simp only [auditedStanding_eq_ok_iff, Defect.demand_eq_ok]
    exact Iff.rfl
  have lists : watches.auditListings = .ok () ↔ ∀ literal ids,
      watches.watchers[literal]? = some ids →
        ids.isEmpty = false ∧ ∀ id ∈ ids, watches.IsWatch id literal := by
    rw [auditListings, Except.forM_eq_ok_iff, Prod.forall]
    simp only [Std.TreeMap.mem_toList_iff_getElem?_eq_some, Defect.demand_bind_eq_ok_iff,
      Except.forM_eq_ok_iff, Std.TreeSet.mem_toList, listing, Bool.not_eq_true']
  rw [lists]
  constructor
  · intro each
    refine ⟨fun literal ids found => (each literal ids found).1, ?_⟩
    intro literal id listed
    rcases isListed_iff_exists.mp listed with ⟨ids, found, member⟩
    exact (each literal ids found).2 id member
  · rintro ⟨nonempty, each⟩ literal ids found
    refine ⟨nonempty literal ids found, ?_⟩
    intro id member
    exact each literal id (isListed_iff_exists.mpr ⟨ids, found, member⟩)

/-- What is asked of the standing of a clause. -/
def Proper (watches : Watches) (id : ClauseId) (clause : Clause) : Standing → Prop
  | .watched first second =>
      first ≠ second ∧ (first ∈ clause.literals ∧ second ∈ clause.literals) ∧
        watches.isListed first id = true ∧ watches.isListed second id = true
  | .unit => True
  | .retired => True

/-- The part of an audit that is about the standing of one clause. -/
def auditStanding (watches : Watches) (id : ClauseId) (clause : Clause) : Except Defect Unit := do
  match ← watches.auditedStanding id with
  | .watched first second =>
    Defect.demand (first != second) (.doubleWatch id first)
    Defect.demand (clause.contains first && clause.contains second) (.foreignWatch id)
    Defect.demand (watches.isListed first id && watches.isListed second id) (.missingListing id)
  | .unit | .retired => return ()

theorem auditStandings_eq_forM (watches : Watches) (formula : Formula) :
    watches.auditStandings formula =
      formula.entries.forM fun entry => watches.auditStanding entry.1 entry.2 :=
  rfl

theorem auditStanding_eq_ok_iff {id : ClauseId} {clause : Clause} :
    watches.auditStanding id clause = .ok () ↔
      ∃ standing, watches.standing id = .ok standing ∧ watches.Proper id clause standing := by
  rw [auditStanding, Except.bind_eq_ok_iff]
  apply exists_congr
  intro standing
  rw [auditedStanding_eq_ok_iff]
  apply and_congr_right
  intro _
  cases standing with
  | watched first second =>
      simp only [Defect.demand_bind_eq_ok_iff, Defect.demand_eq_ok, bne_iff_ne, Bool.and_eq_true,
        Clause.contains_iff]
      exact Iff.rfl
  | unit => exact ⟨fun _ => trivial, fun _ => rfl⟩
  | retired => exact ⟨fun _ => trivial, fun _ => rfl⟩

theorem auditStandings_eq_ok_iff :
    watches.auditStandings formula = .ok () ↔ ∀ id clause, formula.clause id = .ok clause →
      ∃ standing, watches.standing id = .ok standing ∧ watches.Proper id clause standing := by
  rw [auditStandings_eq_forM, Except.forM_eq_ok_iff]
  simp only [auditStanding_eq_ok_iff]
  exact Table.forall_mem_entries_iff

theorem audit_eq_ok_iff :
    watches.audit formula = .ok () ↔ watches.standings.size = formula.size ∧
      watches.auditListings = .ok () ∧ watches.auditStandings formula = .ok () := by
  rw [audit, Defect.demand_bind_eq_ok_iff, beq_iff_eq, Except.unit_bind_eq_ok_iff]

end Watches

namespace Propagator

variable {propagator : Propagator}

/-- What is asked of the standing of a clause once nothing is left to propagate. -/
def Judged (propagator : Propagator) (clause : Clause) : Standing → Prop
  | .watched first second => -first ∉ propagator.units ∧ -second ∉ propagator.units
  | .unit => propagator.Satisfies clause
  | .retired => propagator.Satisfies clause

theorem any_isTrue_iff {clause : Clause} :
    clause.literals.any propagator.isTrue = true ↔ propagator.Satisfies clause := by
  simp only [List.any_eq_true, isTrue_iff]
  exact Iff.rfl

theorem auditClauses_eq_ok_iff :
    propagator.auditClauses = .ok () ↔ ∀ id clause, propagator.formula.clause id = .ok clause →
      ∃ standing, propagator.watches.standing id = .ok standing ∧
        propagator.Judged clause standing := by
  rw [auditClauses, Except.forM_eq_ok_iff]
  apply Table.forall_mem_entries_iff.trans
  apply forall_congr'
  intro id
  apply forall_congr'
  intro clause
  apply imp_congr_right
  intro _
  rw [Except.bind_eq_ok_iff]
  apply exists_congr
  intro standing
  rw [Watches.auditedStanding_eq_ok_iff]
  apply and_congr_right
  intro _
  cases standing with
  | watched first second =>
      simp only [Defect.demand_eq_ok, Bool.and_eq_true, Bool.not_eq_true', isFalse_eq_false_iff]
      exact Iff.rfl
  | unit => exact Defect.demand_eq_ok.trans any_isTrue_iff
  | retired => exact Defect.demand_eq_ok.trans any_isTrue_iff

theorem audit_eq_ok_iff :
    propagator.audit = .ok () ↔
      (∀ literal ∈ propagator.units, -literal ∉ propagator.units) ∧
        propagator.watches.audit propagator.formula = .ok () ∧
          (propagator.queue = [] → propagator.auditClauses = .ok ()) := by
  rw [audit, Defect.demand_bind_eq_ok_iff, Except.unit_bind_eq_ok_iff]
  simp only [List.all_eq_true, Std.TreeSet.mem_toList, Bool.not_eq_true', isFalse_eq_false_iff,
    ← List.isEmpty_iff]
  apply and_congr_right
  intro _
  apply and_congr_right
  intro _
  cases propagator.queue.isEmpty with
  | true => simp
  | false => exact ⟨fun _ isEmpty => Bool.noConfusion isEmpty, fun _ => rfl⟩

/-! ## Balanced propagators -/

/-- The condition of a propagator which has nothing left to propagate.  The lists and
the standings name the same watches, no empty list is kept, and a clause either is
watched by two different literals of its own, neither of them false, or has a true
literal. -/
structure Balanced (propagator : Propagator) : Prop where
  units_consistent : ∀ literal ∈ propagator.units, -literal ∉ propagator.units
  standings_size : propagator.watches.standings.size = propagator.formula.size
  lists_nonempty : propagator.watches.ListsNonempty
  isListed_iff : ∀ literal id,
    propagator.watches.isListed literal id = true ↔ propagator.watches.IsWatch id literal
  watched_or_satisfied : ∀ id clause, propagator.formula.clause id = .ok clause →
    (∃ first second, propagator.watches.standing id = .ok (.watched first second) ∧
      first ≠ second ∧ (first ∈ clause.literals ∧ second ∈ clause.literals) ∧
        -first ∉ propagator.units ∧ -second ∉ propagator.units) ∨
    ((propagator.watches.standing id = .ok .unit ∨ propagator.watches.standing id = .ok .retired) ∧
      propagator.Satisfies clause)

/-- A clause of a balanced propagator has a standing that every audit accepts. -/
theorem Balanced.exists_standing (balanced : propagator.Balanced) {id : ClauseId} {clause : Clause}
    (read : propagator.formula.clause id = .ok clause) :
    ∃ standing, propagator.watches.standing id = .ok standing ∧
      propagator.watches.Proper id clause standing ∧ propagator.Judged clause standing := by
  rcases balanced.watched_or_satisfied id clause read with
    ⟨first, second, found, different, own, free⟩ | ⟨found | found, satisfied⟩
  · have listed : ∀ literal, literal = first ∨ literal = second →
        propagator.watches.isListed literal id = true := by
      intro literal either
      apply (balanced.isListed_iff literal id).mpr
      exact (Watches.isWatch_iff_of_watched found literal).mpr either
    exact ⟨_, found, ⟨different, own, listed first (Or.inl rfl), listed second (Or.inr rfl)⟩, free⟩
  · exact ⟨_, found, trivial, satisfied⟩
  · exact ⟨_, found, trivial, satisfied⟩

theorem isListed_of_isWatch {watches : Watches} {formula : Formula}
    (size : watches.standings.size = formula.size)
    (proper : ∀ id clause, formula.clause id = .ok clause →
      ∃ standing, watches.standing id = .ok standing ∧ watches.Proper id clause standing)
    {id : ClauseId} {literal : Literal} (isWatch : watches.IsWatch id literal) :
    watches.isListed literal id = true := by
  rcases Watches.isWatch_iff_exists.mp isWatch with ⟨first, second, found, either⟩
  have inside := size ▸ Watches.standing_lt found
  rcases Table.exists_get_of_lt inside with ⟨clause, read⟩
  rcases proper id clause read with ⟨other, foundOther, demands⟩
  cases found.symm.trans foundOther
  rcases either with rfl | rfl
  · exact demands.2.2.1
  · exact demands.2.2.2

/-- An audit passes exactly where nothing is left to propagate, reached or not. -/
theorem audit_eq_ok_iff_balanced (queue : propagator.queue = []) :
    propagator.audit = .ok () ↔ propagator.Balanced := by
  rw [audit_eq_ok_iff, Watches.audit_eq_ok_iff, Watches.auditListings_eq_ok_iff,
    Watches.auditStandings_eq_ok_iff, auditClauses_eq_ok_iff]
  simp only [queue, forall_const]
  constructor
  · rintro ⟨units_consistent, ⟨size, ⟨nonempty, isWatch⟩, proper⟩, judged⟩
    refine ⟨units_consistent, size, nonempty, ?_, ?_⟩
    · intro literal id
      exact ⟨isWatch literal id, isListed_of_isWatch size proper⟩
    · intro id clause read
      rcases proper id clause read with ⟨standing, found, demands⟩
      rcases judged id clause read with ⟨other, foundOther, verdict⟩
      cases found.symm.trans foundOther
      cases standing with
      | watched first second =>
          exact Or.inl ⟨first, second, found, demands.1, demands.2.1, verdict⟩
      | unit => exact Or.inr ⟨Or.inl found, verdict⟩
      | retired => exact Or.inr ⟨Or.inr found, verdict⟩
  · intro balanced
    refine ⟨balanced.units_consistent, ⟨balanced.standings_size, ⟨balanced.lists_nonempty,
      fun literal id => (balanced.isListed_iff literal id).mp⟩, ?_⟩, ?_⟩
    · intro id clause read
      rcases balanced.exists_standing read with ⟨standing, found, proper, _⟩
      exact ⟨standing, found, proper⟩
    · intro id clause read
      rcases balanced.exists_standing read with ⟨standing, found, _, judged⟩
      exact ⟨standing, found, judged⟩

/-! ## Guarded propagators pass their audits -/

theorem Guarded.auditListings_eq_ok {lost : Literal} {remaining : List ClauseId}
    (guarded : propagator.Guarded lost remaining) :
    propagator.watches.auditListings = .ok () := by
  refine Watches.auditListings_eq_ok_iff.mpr ⟨guarded.coherent.lists_nonempty, ?_⟩
  intro literal id listed
  exact ((guarded.coherent.isListed_iff literal id).mp listed).1

/-- A clause that waits for no visit has a proper standing if it does not open with a repetition. -/
theorem Guarded.exists_proper {lost : Literal} {remaining : List ClauseId}
    (guarded : propagator.Guarded lost remaining) {id : ClauseId} {clause : Clause}
    (read : propagator.formula.clause id = .ok clause) (apart : ¬clause.OpensTwice)
    (visited : id ∉ remaining) :
    ∃ standing, propagator.watches.standing id = .ok standing ∧
      propagator.watches.Proper id clause standing := by
  have coherent := guarded.coherent
  rcases coherent.exists_standing read with ⟨standing, found⟩
  refine ⟨standing, found, ?_⟩
  cases standing with
  | watched first second =>
      have listed : ∀ literal, literal = first ∨ literal = second →
          propagator.watches.isListed literal id = true := by
        intro literal either
        have isWatch := (Watches.isWatch_iff_of_watched found literal).mpr either
        exact (coherent.isListed_iff literal id).mpr ⟨isWatch, fun waits => visited waits.2⟩
      exact ⟨(guarded.attended_both found read apart).1, coherent.watched_mem read found,
        listed first (Or.inl rfl), listed second (Or.inr rfl)⟩
  | unit => trivial
  | retired => trivial

def UnitsSatisfied (propagator : Propagator) : Prop :=
  ∀ id clause, propagator.formula.clause id = .ok clause → clause.isUnit = true →
    propagator.Satisfies clause

/-- Where no clause waits for a visit an audit finds nothing, whether or not units wait. -/
theorem Guarded.audit_eq_ok {lost : Literal} (guarded : propagator.Guarded lost [])
    (apart : ∀ clause ∈ propagator.formula.toList, ¬clause.OpensTwice)
    (units : propagator.UnitsSatisfied) : propagator.audit = .ok () := by
  have apartAt : ∀ {id clause}, propagator.formula.clause id = .ok clause → ¬clause.OpensTwice :=
    fun read => apart _ (Formula.mem_toList read)
  refine audit_eq_ok_iff.mpr ⟨guarded.units_consistent, Watches.audit_eq_ok_iff.mpr
    ⟨guarded.coherent.standings_size, guarded.auditListings_eq_ok, ?_⟩, ?_⟩
  · apply Watches.auditStandings_eq_ok_iff.mpr
    intro id clause read
    exact guarded.exists_proper read (apartAt read) List.not_mem_nil
  · intro queue
    apply auditClauses_eq_ok_iff.mpr
    intro id clause read
    rcases guarded.coherent.exists_standing read with ⟨standing, found⟩
    refine ⟨standing, found, ?_⟩
    cases standing with
    | watched first second => exact (guarded.not_false_both queue found read (apartAt read)).2
    | unit => exact units id clause read ((guarded.coherent.unit_iff read).mp found)
    | retired => exact guarded.retired_satisfied found read

theorem Settled.unitsSatisfied {formula : Formula} {given : Literal → Prop}
    (settled : propagator.Settled formula given)
    (units_given : ∀ literal ∈ formula.unitLiterals, given literal) :
    propagator.UnitsSatisfied := by
  intro id clause read isUnit
  have found := ((settled.guarded default).coherent.unit_iff read).mpr isUnit
  exact settled.satisfies_of_unit units_given (settled.formula_eq ▸ read) found

/-- A settled propagator is balanced if its clauses do not open with a repetition. -/
theorem Settled.balanced {formula : Formula} {given : Literal → Prop}
    (settled : propagator.Settled formula given)
    (units_given : ∀ literal ∈ formula.unitLiterals, given literal)
    (apart : ∀ clause ∈ formula.toList, ¬clause.OpensTwice) : propagator.Balanced :=
  (audit_eq_ok_iff_balanced settled.queue_eq).mp
    ((settled.guarded default).audit_eq_ok (settled.formula_eq ▸ apart)
      (settled.unitsSatisfied units_given))

end Propagator

namespace Branch.Reached

variable {branch : Branch} {formula : Formula}

/-- Retired clauses stay satisfied, even by what a conflict has left behind. -/
theorem satisfies_of_retired (reached : branch.Reached formula) {id : ClauseId}
    (found : branch.propagator.watches.standing id = .ok .retired) :
    ∃ clause, formula.clause id = .ok clause ∧ branch.propagator.Satisfies clause := by
  rcases reached.guarded with ⟨lost, remaining, guarded⟩
  rcases guarded.coherent.exists_clause found with ⟨clause, read⟩
  exact ⟨clause, reached.formula_eq ▸ read, guarded.retired_satisfied found read⟩

end Branch.Reached

/-- Every propagator of a session that is consistent passes its audit and is balanced.
Whatever a conflict has left behind, no literal is a unit together with its negation,
and the retired clauses are satisfied. -/
theorem audit_eq_ok_of_consistent {clauses : List (List Literal)}
    (few : clauses.length ≤ ClauseId.limit) (nonempty : ∀ clause ∈ clauses, clause ≠ [])
    (nodup : ∀ clause ∈ clauses, clause.Nodup) {propagator : Propagator}
    (made : (Propagator.ofLists false clauses).result = .ok propagator) (calls : List Call) :
    ∀ branch ∈ ((Session.start propagator).run calls).branches,
      branch.propagator.formula.lists = clauses ∧
      (branch.propagator.inconsistent = false →
        branch.propagator.queue = [] ∧ branch.propagator.audit = .ok () ∧
          branch.propagator.Balanced) ∧
      (∀ literal ∈ branch.propagator.units, -literal ∉ branch.propagator.units) ∧
      ∀ id, branch.propagator.watches.standing id = .ok .retired →
        ∃ clause, branch.propagator.formula.clause id = .ok clause ∧
          branch.propagator.Satisfies clause := by
  intro branch member
  rcases Formula.exists_ofLists few nonempty with ⟨formula, formulaMade, rfl⟩
  rw [Propagator.result_ofLists formulaMade] at made
  have apart := Formula.not_opensTwice_of_nodup nodup
  have reached := Session.reached made calls branch member
  rcases reached.guarded with ⟨lost, remaining, guarded⟩
  rw [reached.formula_eq]
  refine ⟨rfl, ?_, guarded.units_consistent, fun id found => reached.satisfies_of_retired found⟩
  intro consistent
  have settled := reached.settled_of_consistent consistent
  have balanced := settled.balanced (formula.units_given branch.assumptions) apart
  exact ⟨settled.queue_eq, (Propagator.audit_eq_ok_iff_balanced settled.queue_eq).mpr balanced,
    balanced⟩

/-- A conflict on a clone leaves the clone without contradictory units, and its origin
passes the audit. -/
theorem origin_passes_audit_after_conflict :
    let first : Literal := ⟨1, by decide, by decide⟩
    let second : Literal := ⟨2, by decide, by decide⟩
    let clauses := [[-first, second], [-first, -second]]
    let calls : List Call := [.clone 0, .assumeOne 1 first]
    (clauses.length ≤ ClauseId.limit ∧ (∀ clause ∈ clauses, clause ≠ []) ∧
      ∀ clause ∈ clauses, clause.Nodup) ∧
    ∃ propagator, (Propagator.ofLists false clauses).result = .ok propagator ∧
      ∃ origin ∈ ((Session.start propagator).run calls).branches,
        origin.propagator.audit = .ok () ∧
      ∃ failed ∈ ((Session.start propagator).run calls).branches,
        failed.propagator.inconsistent = true ∧ first ∈ failed.propagator.units ∧
          -first ∉ failed.propagator.units := by
  intro first second clauses calls
  have few : clauses.length ≤ ClauseId.limit := by decide
  have nonempty : ∀ clause ∈ clauses, clause ≠ [] := by decide
  have nodup : ∀ clause ∈ clauses, clause.Nodup := by decide
  refine ⟨⟨few, nonempty, nodup⟩, ?_⟩
  have conflicting : (Propagator.ofLists false clauses).result.toOption.any (fun propagator =>
      (propagator.assumeOne first).propagator.inconsistent &&
        (propagator.assumeOne first).propagator.isTrue first) = true := by
    decide +kernel
  cases made : (Propagator.ofLists false clauses).result with
  | error stop =>
      rw [made] at conflicting
      cases conflicting
  | ok propagator =>
      simp only [made, Except.toOption, Option.any_some, Bool.and_eq_true,
        Propagator.isTrue_iff] at conflicting
      have every := audit_eq_ok_of_consistent few nonempty nodup made calls
      have origin : Branch.made propagator ∈ ((Session.start propagator).run calls).branches :=
        List.mem_cons_self
      have failed : (Branch.made propagator).assumeOne first ∈
          ((Session.start propagator).run calls).branches :=
        List.mem_cons_of_mem _ List.mem_cons_self
      have consistent : propagator.inconsistent = false := by
        rcases Formula.exists_ofLists few nonempty with ⟨formula, formulaMade, _⟩
        rw [Propagator.result_ofLists formulaMade] at made
        exact (Propagator.settled_of_ofFormula made).consistent
      exact ⟨propagator, rfl, _, origin, ((every _ origin).2.1 consistent).2.1, _, failed,
        conflicting.1, conflicting.2, (every _ failed).2.2.1 first conflicting.2⟩

end UnitPropagation
