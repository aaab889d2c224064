import UnitPropagation.Proofs.Propagation.Audit
import UnitPropagation.Proofs.Propagation.Gain

namespace UnitPropagation

/-!
# What a conflict leaves behind

An audit is meant for propagators which no conflict has interrupted, but what it finds
after a conflict is determined nevertheless.  Where a literal was refused nothing has been
propagated yet, and there is no defect.  Where a clause was falsified, this clause and those
behind it have been taken from the list of the lost literal and were not listed again.  They
are taken in ascending order, and an audit looks at the clauses in the same order.  So the
falsified clause is the first one whose listing is missing, and the audit names it.

Nothing of this changes later, because an inconsistent propagator refuses every call.
-/

/-- A check of all items ends at the first one that fails. -/
theorem Except.forM_eq_error {ε α : Type} {check : α → Except ε Unit} {front behind : List α}
    {item : α} {stop : ε} (passes : ∀ earlier ∈ front, check earlier = .ok ())
    (fails : check item = .error stop) : (front ++ item :: behind).forM check = .error stop := by
  have step : ∀ first others, (first :: others : List α).forM check =
      check first >>= fun _ => others.forM check := fun _ _ => rfl
  induction front with
  | nil =>
      rw [List.nil_append, step, fails]
      rfl
  | cons first front ih =>
      rw [List.forall_mem_cons] at passes
      rw [List.cons_append, step, passes.1]
      exact ih passes.2

namespace Table

variable {α : Type} {table : Table α}

theorem pairwise_entries (table : Table α) :
    table.entries.Pairwise fun first second => first.1 < second.1 := by
  have keys : table.entries.map Prod.fst = List.range' 0 table.toList.length := by
    rw [entries, List.map_map]
    exact List.zipIdx_map_snd 0 _
  have ascending := List.pairwise_lt_range' (s := 0) (n := table.toList.length)
  rw [← keys, List.pairwise_map] at ascending
  exact ascending

theorem exists_entries_cut {key : Nat} {row : α} (read : table.get key = .ok row) :
    ∃ front behind, table.entries = front ++ (key, row) :: behind ∧
      ∀ earlier ∈ front, earlier.1 < key := by
  rcases List.append_of_mem (mem_entries.mpr (get_eq_ok_iff.mp read)) with ⟨front, behind, cut⟩
  have ascending := table.pairwise_entries
  rw [cut, List.pairwise_append] at ascending
  exact ⟨front, behind, cut, fun earlier member => ascending.2.2 earlier member _ List.mem_cons_self⟩

end Table

namespace Watches

variable {watches : Watches} {formula : Formula} {id : ClauseId} {clause : Clause}

theorem pairwise_take (watches : Watches) (literal : Literal) :
    (watches.take literal).1.Pairwise (· < ·) :=
  Std.TreeSet.ordered_toList.imp fun order => Nat.compare_eq_lt.mp order

/-- The standings are checked in ascending order, up to the first defect. -/
theorem auditStandings_eq_error {defect : Defect} (read : formula.clause id = .ok clause)
    (passes : ∀ other otherClause, other < id → formula.clause other = .ok otherClause →
      watches.auditStanding other otherClause = .ok ())
    (fails : watches.auditStanding id clause = .error defect) :
    watches.auditStandings formula = .error defect := by
  rcases Table.exists_entries_cut read with ⟨front, behind, cut, smaller⟩
  have entries : formula.entries = front ++ (id, clause) :: behind := cut
  rw [auditStandings_eq_forM, entries]
  refine Except.forM_eq_error ?_ fails
  rintro ⟨other, otherClause⟩ member
  apply passes other otherClause (smaller _ member)
  apply Table.get_eq_ok_iff.mpr
  apply Table.mem_entries.mp
  rw [cut]
  exact List.mem_append_left _ member

/-- A clause which is not listed under one of its watches is found where its watches are
different and its own. -/
theorem auditStanding_eq_missing {first second : Literal}
    (found : watches.standing id = .ok (.watched first second)) (different : first ≠ second)
    (firstMem : first ∈ clause.literals) (secondMem : second ∈ clause.literals)
    (missing : watches.isListed first id = false ∨ watches.isListed second id = false) :
    watches.auditStanding id clause = .error (.missingListing id) := by
  have unlisted : (watches.isListed first id && watches.isListed second id) = false := by
    rcases missing with atFirst | atSecond
    · rw [atFirst, Bool.false_and]
    · rw [atSecond, Bool.and_false]
  have own : (clause.contains first && clause.contains second) = true := by
    rw [Clause.contains_iff.mpr firstMem, Clause.contains_iff.mpr secondMem, Bool.and_self]
  rw [auditStanding, auditedStanding_eq_ok_iff.mpr found]
  simp only [bind, Except.bind, Defect.demand, bne_iff_ne.mpr different, own, unlisted,
    if_true, Bool.false_eq_true, if_false]

end Watches

namespace Propagator

variable {propagator : Propagator} {formula : Formula} {given : Literal → Prop}

/-- Where clauses wait for their visit, an audit complains that the first of them is not
listed. -/
theorem Guarded.audit_eq_missing {lost : Literal} {id : ClauseId} {remaining : List ClauseId}
    (guarded : propagator.Guarded lost (id :: remaining))
    (ascending : (id :: remaining).Pairwise (· < ·))
    (apart : ∀ clause ∈ propagator.formula.toList, ¬clause.OpensTwice) :
    propagator.audit = .error (.missingListing id) := by
  have coherent := guarded.coherent
  have apartAt : ∀ {id clause}, propagator.formula.clause id = .ok clause → ¬clause.OpensTwice :=
    fun read => apart _ (Formula.mem_toList read)
  have unlisted : propagator.watches.isListed lost id = false := by
    apply Bool.eq_false_iff.mpr
    intro listed
    exact ((coherent.isListed_iff lost id).mp listed).2 ⟨rfl, List.mem_cons_self⟩
  rcases coherent.exists_of_remaining with ⟨standing, partner, clause, found, partnerFound, read⟩
  have lostMem := coherent.mem_literals read (coherent.isWatch_lost id List.mem_cons_self)
  have partnerMem := coherent.partner_mem found partnerFound read
  have fails : propagator.watches.auditStanding id clause = .error (.missingListing id) := by
    rcases Standing.partner_eq_ok_iff.mp partnerFound with rfl | ⟨rfl, different⟩
    · exact Watches.auditStanding_eq_missing found (guarded.attended_both found read (apartAt read)).1
        lostMem partnerMem (Or.inl unlisted)
    · exact Watches.auditStanding_eq_missing found different partnerMem lostMem (Or.inr unlisted)
  have standings : propagator.watches.auditStandings propagator.formula =
      .error (.missingListing id) := by
    refine Watches.auditStandings_eq_error read ?_ fails
    intro other otherClause smaller otherRead
    apply Watches.auditStanding_eq_ok_iff.mpr
    apply guarded.exists_proper otherRead (apartAt otherRead)
    intro waits
    rcases List.mem_cons.mp waits with rfl | later
    · exact Nat.lt_irrefl _ smaller
    · exact Nat.lt_asymm smaller ((List.pairwise_cons.mp ascending).1 other later)
  have polarities : (propagator.units.toList.all fun literal => !propagator.isFalse literal) =
      true := by
    simp only [List.all_eq_true, Std.TreeSet.mem_toList, Bool.not_eq_true', isFalse_eq_false_iff]
    exact guarded.units_consistent
  simp only [audit, Watches.audit, polarities, coherent.standings_size, beq_self_eq_true,
    Defect.demand, if_true, guarded.auditListings_eq_ok, standings]
  rfl

/-! ## Audits after failed calls -/

/-- What an audit finds after a call that has failed: nothing if a literal was refused, and
if a clause was falsified, that this clause is not listed. -/
inductive AuditedAfter : Stop → Except Defect Unit → Prop where
  | refused (literal : Literal) : AuditedAfter (.conflict (.complementaryUnit literal)) (.ok ())
  | falsified (id : ClauseId) (literal : Literal) :
    AuditedAfter (.conflict (.falsifiedClause id literal)) (.error (.missingListing id))

theorem AuditedAfter.eq_ok {literal : Literal} {finding : Except Defect Unit}
    (audited : AuditedAfter (.conflict (.complementaryUnit literal)) finding) :
    finding = .ok () := by
  cases audited
  rfl

theorem AuditedAfter.eq_missing {id : ClauseId} {literal : Literal} {finding : Except Defect Unit}
    (audited : AuditedAfter (.conflict (.falsifiedClause id literal)) finding) :
    finding = .error (.missingListing id) := by
  cases audited
  rfl

theorem audit_contradicted (propagator : Propagator) :
    propagator.contradicted.audit = propagator.audit :=
  rfl

theorem Settled.derive_audited (settled : propagator.Settled formula given)
    (apart : ∀ clause ∈ formula.toList, ¬clause.OpensTwice) (units : propagator.UnitsSatisfied)
    (literals : List Literal) {stop : Stop}
    (failed : (propagator.derive literals).result = .error stop) :
    AuditedAfter stop (propagator.derive literals).propagator.audit := by
  have outcome := derive_preserves
    (motive := fun round _ remaining =>
      round.Extends (.start propagator) ∧ remaining.Pairwise (· < ·))
    settled.guarded literals (fun _ => ⟨.refl _, .nil⟩)
    (fun _ before lost => ⟨(before lost).1.enqueue _, (before lost).2⟩)
    (fun _ before _ => ⟨{ before.1 with }, Watches.pairwise_take _ _⟩)
    (fun _ before visited => ⟨before.1.visited visited, (List.pairwise_cons.mp before.2).2⟩)
  have apartIn : ∀ {round : Round}, round.Extends (.start propagator) →
      ∀ clause ∈ round.propagator.formula.toList, ¬clause.OpensTwice := by
    intro round extended
    rw [extended.formula_eq]
    exact settled.formula_eq ▸ apart
  generalize propagator.derive literals = answer at outcome failed ⊢
  cases outcome with
  | settled => cases failed
  | @refused round lost literal holds guarded =>
      cases failed
      have satisfied : round.propagator.UnitsSatisfied := by
        intro id clause read isUnit
        rw [holds.1.formula_eq] at read
        rcases units id clause read isUnit with ⟨literal, member, known⟩
        exact ⟨literal, member, holds.1.units_mono literal known⟩
      rw [audit_contradicted, guarded.audit_eq_ok (apartIn holds.1) satisfied]
      exact .refused literal
  | @falsified round lost partner id remaining holds guarded =>
      cases failed
      have counted : round.countVisit.propagator.Guarded lost (id :: remaining) := { guarded with }
      have extended : round.countVisit.Extends (.start propagator) := { holds.1 with }
      rw [audit_contradicted, counted.audit_eq_missing holds.2 (apartIn extended)]
      exact .falsified id partner

/-- What holds of a propagator on a line of calls: its unit clauses are satisfied, and if a
call has failed, an audit finds what the reason of the first failure says. -/
structure Audited (propagator : Propagator) (failure : Option Stop) : Prop where
  unitsSatisfied : propagator.UnitsSatisfied
  auditedAfter : ∀ stop, failure = some stop → AuditedAfter stop propagator.audit

theorem Settled.assume_audited (settled : propagator.Settled formula given)
    (apart : ∀ clause ∈ formula.toList, ¬clause.OpensTwice) (units : propagator.UnitsSatisfied)
    (literals : List Literal) :
    (propagator.assume literals).propagator.Audited (propagator.assume literals).stop? := by
  rcases settled.assume_eq_derive literals with ⟨after, result⟩
  have keeps := (settled.derive_gains literals).1
  constructor
  case unitsSatisfied =>
    intro id clause read isUnit
    rw [after, keeps.formula_eq] at read
    rcases units id clause read isUnit with ⟨literal, member, known⟩
    exact ⟨literal, member, after ▸ keeps.units_mono literal known⟩
  case auditedAfter =>
    intro stop failed
    rw [Answer.stop?_eq_some_iff, result] at failed
    rw [after]
    exact settled.derive_audited apart units literals failed

end Propagator

/-- What an audit finds after a failed call is determined by the reason of the failure, if no
clause repeats a literal.  A call on a consistent propagator of a session fails because a
literal is refused, and then an audit finds nothing, or because a clause is falsified, and
then the audit complains that this clause is not listed.  At the end of every line of a
session, no matter how many clones and refused calls have come in between, an audit finds
what it would have found right after the first failure. -/
theorem audit_reveals_failure {strict : Bool} {clauses : List (List Literal)}
    (nodup : ∀ clause ∈ clauses, clause.Nodup) {propagator : Propagator}
    (made : (Propagator.ofLists strict clauses).result = .ok propagator) (calls : List Call) :
    (∀ branch ∈ ((Session.start propagator).run calls).branches,
      branch.propagator.inconsistent = false → ∀ literals stop,
        (branch.propagator.assume literals).result = .error stop →
          Propagator.AuditedAfter stop (branch.propagator.assume literals).propagator.audit) ∧
    (∀ (slot : Nat) line, (Session.lines calls)[slot]? = some line →
      ∃ branch : Branch, ((Session.start propagator).run calls).branches[slot]? = some branch ∧
        ∀ stop, propagator.failure? line = some stop →
          Propagator.AuditedAfter stop branch.propagator.audit) ∧
    ∀ id, (Defect.missingListing id).message =
      s!"Clause {id} is missing from the watch list of a watched literal." := by
  rcases Propagator.exists_formula_of_made made with ⟨formula, formulaMade, ofFormula⟩
  have lists : formula.lists = clauses := Formula.literals_of_ofLists formulaMade
  have apart := Formula.not_opensTwice_of_nodup (lists ▸ nodup)
  refine ⟨?_, ?_, fun _ => rfl⟩
  · intro branch member consistent literals stop failed
    have reached := Session.reached ofFormula calls branch member
    have settled := reached.settled_of_consistent consistent
    have units := settled.unitsSatisfied (formula.units_given branch.assumptions)
    exact (settled.assume_audited apart units literals).auditedAfter stop
      (Answer.stop?_eq_some_iff.mpr failed)
  · intro slot line found
    refine ⟨(Branch.made propagator).assumeAll line, ?_, ?_⟩
    · rw [Session.getElem?_branches_run ofFormula, found]
      rfl
    · have atStart : propagator.Audited none :=
        ⟨(Propagator.settled_of_ofFormula ofFormula).unitsSatisfied (formula.units_given []), nofun⟩
      exact (Branch.Reached.preserves_assumeAll (motive := Propagator.Audited)
        (fun settled before literals => settled.assume_audited apart before.unitsSatisfied literals)
        line (Branch.reached_made ofFormula) rfl atStart).auditedAfter

/-- On a clone, a literal is refused without a defect.  On another one, a clause is falsified
and is named by the audit, also after one more call and on the clone of this clone. -/
theorem audits_of_failed_clones :
    let first : Literal := ⟨1, by decide, by decide⟩
    let second : Literal := ⟨2, by decide, by decide⟩
    let clauses := [[first, second], [first, -second]]
    let calls : List Call := [.clone 0, .assumeOne 1 (-first), .assumeOne 1 second, .clone 1]
    (∀ clause ∈ clauses, clause.Nodup) ∧
    ∃ propagator, (Propagator.ofLists false clauses).result = .ok propagator ∧
      propagator.inconsistent = false ∧
      (propagator.assume [second, -second]).propagator.audit = .ok () ∧
      ∃ branch : Branch, ((Session.start propagator).run calls).branches[2]? = some branch ∧
        branch.propagator.audit = .error (.missingListing 1) := by
  intro first second clauses calls
  have nodup : ∀ clause ∈ clauses, clause.Nodup := by decide
  refine ⟨nodup, ?_⟩
  have failing : (Propagator.ofLists false clauses).result.toOption.any (fun propagator =>
      !propagator.inconsistent && decide (
        (propagator.assume [second, -second]).stop? =
          some (.conflict (.complementaryUnit (-second))) ∧
        propagator.failure? [[-first], [second]] =
          some (.conflict (.falsifiedClause 1 (-second))))) = true := by
    decide +kernel
  rcases Except.exists_ok_of_any failing with ⟨propagator, made, failing⟩
  simp only [Bool.and_eq_true, Bool.not_eq_true', decide_eq_true_eq,
    Answer.stop?_eq_some_iff] at failing
  rcases failing with ⟨consistent, refused, falsified⟩
  rcases audit_reveals_failure nodup made calls with ⟨inSession, onLine, _⟩
  have sound := inSession _ List.mem_cons_self consistent _ _ refused
  rcases onLine 2 _ rfl with ⟨branch, found, audited⟩
  exact ⟨propagator, made, consistent, sound.eq_ok, branch, found, (audited _ falsified).eq_missing⟩

end UnitPropagation
