import UnitPropagation.Proofs.Propagation.Reached

namespace UnitPropagation

/-!
# No contract is broken

Faults are reported by operations that are used outside their contracts.  Propagation
never does so.  When the index is made, every clause gets its own number and is asked
only for literals that it has.  When a clause is visited it is watched by the literal
that was lost, and it stays so while it waits for its visit, whatever happens to other
clauses and to the units meanwhile.  And units are assumed only where none is waiting.

Nothing is assumed about the literals within a clause.
-/

namespace Watches

theorem size_foldl_add (clauses : List Clause) (watches : Watches) :
    (clauses.foldl add watches).standings.size = watches.standings.size + clauses.length := by
  induction clauses generalizing watches with
  | nil => rfl
  | cons clause clauses ih =>
      rw [List.foldl_cons, ih, standings_add, Table.size_push, List.length_cons]
      omega

/-- What making the index for a formula relies on: the next number is the number of the
clause, there is such a clause number, and the clause has the literals it is asked for. -/
structure MadeInOrder (formula : Formula) : Prop where
  number : ∀ before clause after, formula.toList = before ++ clause :: after →
    (before.foldl add empty).standings.nextKey = before.length ∧
      ClauseId.ofIndex before.length = .ok before.length ∧
        formula.clause before.length = .ok clause
  opening : ∀ clause ∈ formula.toList, clause.get 0 = .ok clause.first ∧
    (clause.isUnit = false → ∃ second, clause.get 1 = .ok second ∧
      Standing.initial clause = .watched clause.first second)

theorem madeInOrder (formula : Formula) : MadeInOrder formula where
  number := by
    intro before clause after split
    have found : formula.toList[before.length]? = some clause := by simp [split]
    have limit : before.length < ClauseId.limit := by
      have inside := (List.getElem?_eq_some_iff.mp found).1
      exact Nat.lt_of_lt_of_le inside formula.size_le
    refine ⟨?_, by rw [ClauseId.ofIndex, if_pos limit], clause_eq_ok_iff.mpr found⟩
    exact (size_foldl_add before empty).trans (Nat.zero_add _)
  opening := by
    rintro ⟨first, rest⟩ _
    refine ⟨rfl, ?_⟩
    intro notUnit
    cases rest with
    | nil => cases notUnit
    | cons second rest => exact ⟨second, rfl, rfl⟩

end Watches

namespace Propagator

/-- What a visit relies on: the clause exists, the lost literal is one of its two
watches, its partner and its literals are found, and a new watch would differ from the
partner. -/
structure InContract (propagator : Propagator) (lost : Literal) (id : ClauseId) : Prop where
  inside : id < propagator.formula.size ∧ id < propagator.watches.standings.size
  watched : ∃ first second, propagator.watches.standing id = .ok (.watched first second) ∧
    (lost = first ∨ lost = second)
  examined : ∃ finding, propagator.examine lost id = .ok finding
  apart : ∀ {partner replacement},
    propagator.examine lost id = .ok (.movable partner replacement) → partner ≠ replacement

theorem inContract_of_coherent {propagator : Propagator} {lost : Literal} {id : ClauseId}
    {remaining : List ClauseId}
    (coherent : propagator.watches.Coherent propagator.formula lost remaining)
    (member : id ∈ remaining) : propagator.InContract lost id := by
  rcases coherent.isWatch_lost id member with ⟨standing, found, isWatched⟩
  rcases Standing.exists_partner id isWatched with ⟨partner, partnerFound⟩
  rcases coherent.exists_clause found with ⟨clause, read⟩
  have sees : propagator.Sees lost id standing partner clause := ⟨found, partnerFound, read⟩
  have inside := Watches.standing_lt found
  constructor
  case inside => exact ⟨coherent.standings_size ▸ inside, inside⟩
  case watched => exact Watches.isWatch_iff_exists.mp (coherent.isWatch_lost id member)
  case examined => exact ⟨_, sees.examine_eq⟩
  case apart =>
    intro kept replacement examined
    have describes := propagator.judge_describes clause partner
    rw [Except.ok.inj (sees.examine_eq.symm.trans examined)] at describes
    rcases describes with ⟨rfl, _, different, _⟩
    exact Ne.symm different

/-- Whether every visit that can come up while the literals are assumed has what it
relies on, at whatever point of the drain the clause waits for it. -/
def KeepsContracts (propagator : Propagator) (literals : List Literal) : Prop :=
  ∀ start, (Round.start propagator).learnAll literals = .ok start →
    ∀ round lost remaining, Point start round lost remaining →
      ∀ id ∈ remaining, round.propagator.InContract lost id

theorem keepsContracts_of_guarded {propagator : Propagator}
    (guarded : ∀ lost, propagator.Guarded lost []) (literals : List Literal) :
    propagator.KeepsContracts literals := by
  intro start learnt round lost remaining point id member
  have learntGuarded := (guarded_of_learnAll guarded literals).1 learnt
  exact inContract_of_coherent (point.guarded learntGuarded).coherent member

variable {propagator : Propagator} {formula : Formula}

theorem ofFormula_ne_fault (formula : Formula) (fault : Fault) :
    (ofFormula formula).result ≠ .error (.fault fault) := by
  intro faulty
  rcases ofFormula_cases formula with ⟨propagator, made, _⟩ | ⟨conflict, failed, _⟩
  · cases made.symm.trans faulty
  · cases failed.symm.trans faulty

/-- A call on a reached propagator ends well or meets a conflict. -/
theorem assume_ne_fault {assumptions : List Literal}
    (history : History formula assumptions propagator) (literals : List Literal) (fault : Fault) :
    (propagator.assume literals).result ≠ .error (.fault fault) := by
  intro faulty
  rcases history.settled_or_broken with settled | broken
  · rcases settled.assume literals with ⟨⟨derived, ended⟩, _⟩ | ⟨⟨conflict, ended⟩, _⟩
    · cases ended.symm.trans faulty
    · cases ended.symm.trans faulty
  · cases (broken.assume literals).1.symm.trans faulty

end Propagator

/-- Neither making a propagator nor any call in any session breaks a contract.  The
index is made in order, no unit is waiting where a call begins, every clause that is
visited is watched by the lost literal, and no call ends in a fault. -/
theorem no_contract_is_broken {clauses : List (List Literal)}
    (few : clauses.length ≤ ClauseId.limit) (nonempty : ∀ clause ∈ clauses, clause ≠ []) :
    (∃ formula, Formula.ofLists false clauses = .ok formula ∧ formula.lists = clauses ∧
      Watches.MadeInOrder formula ∧
        (Propagator.fresh formula).KeepsContracts formula.unitLiterals) ∧
    (∀ fault, (Propagator.ofLists false clauses).result ≠ .error (.fault fault)) ∧
    ∀ propagator, (Propagator.ofLists false clauses).result = .ok propagator →
      ∀ calls, ∀ branch ∈ ((Session.start propagator).run calls).branches,
        (branch.propagator.inconsistent = false → branch.propagator.queue = []) ∧
        ∀ literals,
          (∀ fault, (branch.propagator.assume literals).result ≠ .error (.fault fault)) ∧
          (branch.propagator.inconsistent = false →
            branch.propagator.KeepsContracts literals) := by
  rcases Formula.exists_ofLists few nonempty with ⟨formula, made, lists⟩
  refine ⟨⟨formula, made, lists, Watches.madeInOrder formula, ?_⟩, ?_, ?_⟩
  · exact Propagator.keepsContracts_of_guarded (Propagator.guarded_fresh formula) _
  · intro fault
    rw [Propagator.result_ofLists made]
    exact Propagator.ofFormula_ne_fault formula fault
  · intro propagator ofLists calls branch member
    rw [Propagator.result_ofLists made] at ofLists
    have reached := Session.reached ofLists calls branch member
    refine ⟨fun consistent => (reached.settled_of_consistent consistent).queue_eq, ?_⟩
    intro literals
    refine ⟨Propagator.assume_ne_fault reached.history literals, ?_⟩
    intro consistent
    exact Propagator.keepsContracts_of_guarded (reached.settled_of_consistent consistent).guarded
      literals

/-- A clause that is watched twice by one literal, another one that is a tautology, and a
unit clause are propagated without a fault, on a clone as well. -/
theorem repeated_watch_keeps_contracts :
    let first : Literal := ⟨1, by decide, by decide⟩
    let second : Literal := ⟨2, by decide, by decide⟩
    let clauses := [[first, first, second], [second, -second, first], [-second]]
    let calls : List Call := [.clone 0, .assumeOne 1 (-first)]
    (clauses.length ≤ ClauseId.limit ∧ ∀ clause ∈ clauses, clause ≠ []) ∧
    ∃ propagator, (Propagator.ofLists false clauses).result = .ok propagator ∧
      propagator.queue = [] ∧ propagator.KeepsContracts [-first] ∧
      ∃ branch ∈ ((Session.start propagator).run calls).branches,
        branch.propagator.inconsistent = true ∧
          ∀ fault, (branch.propagator.assumeOne first).result ≠ .error (.fault fault) := by
  intro first second clauses calls
  have few : clauses.length ≤ ClauseId.limit := by decide
  have nonempty : ∀ clause ∈ clauses, clause ≠ [] := by decide
  refine ⟨⟨few, nonempty⟩, ?_⟩
  have conflicting : (Propagator.ofLists false clauses).result.toOption.any (fun propagator =>
      !propagator.inconsistent && (propagator.assumeOne (-first)).propagator.inconsistent) = true := by
    decide +kernel
  cases made : (Propagator.ofLists false clauses).result with
  | error stop =>
      rw [made] at conflicting
      cases conflicting
  | ok propagator =>
      simp only [made, Except.toOption, Option.any_some, Bool.and_eq_true,
        Bool.not_eq_true'] at conflicting
      have every := (no_contract_is_broken few nonempty).2.2 propagator made calls
      have origin := every (Branch.made propagator) List.mem_cons_self
      have clone : (Branch.made propagator).assumeOne (-first) ∈
          ((Session.start propagator).run calls).branches :=
        List.mem_cons_of_mem _ List.mem_cons_self
      exact ⟨propagator, rfl, origin.1 conflicting.1, (origin.2 [-first]).2 conflicting.1, _, clone,
        conflicting.2, ((every _ clone).2 [first]).1⟩

end UnitPropagation
