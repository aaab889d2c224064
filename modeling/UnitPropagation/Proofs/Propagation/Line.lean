import Mathlib.Data.List.Induction
import UnitPropagation.Proofs.Propagation.Reached
import UnitPropagation.Propagator.Line

namespace UnitPropagation

/-!
# Sessions are their lines

Every branch of a session is what comes of its line of descent alone.  The calls on
other branches have no influence on it, a clone goes on from the line of its origin,
and a restarted propagator is the one that the session began with.
-/

theorem Answer.isNone_stop? (answer : Answer) : answer.stop?.isNone = answer.result.toBool := by
  unfold stop?
  split
  · rename_i derived ended
    rw [ended]
    rfl
  · rename_i stop ended
    rw [ended]
    rfl

theorem Answer.stop?_eq_none_iff {answer : Answer} :
    answer.stop? = none ↔ ∃ derived, answer.result = .ok derived := by
  unfold stop?
  cases answer.result <;> simp

theorem Answer.stop?_eq_some_iff {answer : Answer} {stop : Stop} :
    answer.stop? = some stop ↔ answer.result = .error stop := by
  unfold stop?
  cases answer.result <;> simp

namespace Branch

theorem assumeAll_concat (branch : Branch) (line : List (List Literal)) (literals : List Literal) :
    branch.assumeAll (line ++ [literals]) = (branch.assumeAll line).assume literals := by
  simp [assumeAll]

/-- A branch went well as long as no call on its line failed. -/
theorem wentWell_assumeAll (branch : Branch) (line : List (List Literal)) :
    (branch.assumeAll line).wentWell =
      (branch.wentWell && (branch.propagator.failure? line).isNone) := by
  induction line generalizing branch with
  | nil => simp [assumeAll, Propagator.failure?]
  | cons literals line ih =>
      have step : branch.assumeAll (literals :: line) = (branch.assume literals).assumeAll line :=
        rfl
      rw [step, ih, Propagator.failure?, Option.isNone_or, Answer.isNone_stop?]
      simp only [assume, Bool.and_assoc]

/-- Once a conflict was met, nothing changes any more on the line. -/
theorem propagator_assumeAll {branch : Branch} (inconsistent : branch.propagator.inconsistent = true)
    (line : List (List Literal)) : (branch.assumeAll line).propagator = branch.propagator := by
  induction line generalizing branch with
  | nil => rfl
  | cons literals line ih =>
      have unchanged : (branch.assume literals).propagator = branch.propagator := by
        rw [assume, Propagator.assume_of_inconsistent inconsistent]
      exact (ih (unchanged ▸ inconsistent)).trans unchanged

/-- What every call on a settled propagator keeps, together with the reason of its failure,
holds after a line of calls, together with the reason of the first failure. -/
theorem Reached.preserves_assumeAll {formula : Formula} {motive : Propagator → Option Stop → Prop}
    (assumed : ∀ {propagator given}, propagator.Settled formula given → motive propagator none →
      ∀ literals, motive (propagator.assume literals).propagator
        (propagator.assume literals).stop?)
    (line : List (List Literal)) :
    ∀ {branch : Branch}, branch.Reached formula → branch.wentWell = true →
      motive branch.propagator none →
        motive (branch.assumeAll line).propagator (branch.propagator.failure? line) := by
  induction line with
  | nil =>
      intro branch _ _ holds
      exact holds
  | cons literals line ih =>
      intro branch reached well holds
      have after := assumed (reached.settled well) holds literals
      have next := reached.assume literals
      have step : branch.assumeAll (literals :: line) = (branch.assume literals).assumeAll line :=
        rfl
      have goesOn : (branch.assume literals).wentWell =
          (branch.propagator.assume literals).stop?.isNone := by
        rw [Answer.isNone_stop?, Branch.assume, well, Bool.true_and]
      rw [step, Propagator.failure?]
      cases ended : (branch.propagator.assume literals).stop? with
      | none =>
          rw [ended] at after goesOn
          exact ih next goesOn after
      | some stop =>
          rw [ended] at after goesOn
          rw [propagator_assumeAll (next.broken goesOn).inconsistent line]
          exact after

end Branch

namespace Session

variable {propagator : Propagator} {formula : Formula}

theorem branches_step (made : (Propagator.ofFormula formula).result = .ok propagator)
    {session : Session} (reached : ∀ branch ∈ session.branches, branch.Reached formula)
    {lines : List (List (List Literal))}
    (before : session.branches = lines.map (Branch.made propagator).assumeAll) (call : Call) :
    (session.step call).branches =
      (extendLines lines call).map (Branch.made propagator).assumeAll := by
  have found : ∀ slot : Nat, session.branches[slot]? =
      lines[slot]?.map (Branch.made propagator).assumeAll := by
    intro slot
    rw [before, List.getElem?_map]
  cases call with
  | assume slot literals =>
      simp only [step, extendLines, found slot]
      cases lines[slot]? with
      | none => exact before
      | some line => simp [put, before, List.map_set, Branch.assumeAll_concat]
  | assumeOne slot literal =>
      simp only [step, extendLines, found slot]
      cases lines[slot]? with
      | none => exact before
      | some line =>
          simp [put, before, List.map_set, Branch.assumeAll_concat, Branch.assumeOne_eq_assume]
  | clone slot =>
      simp only [step, extendLines, found slot]
      cases lines[slot]? with
      | none => exact before
      | some line => simp [add, before]
  | restart slot =>
      have known := found slot
      simp only [step, extendLines]
      cases read : lines[slot]? with
      | none =>
          rw [read] at known
          simp only [known, Option.map_none]
          exact before
      | some line =>
          rw [read] at known
          have member := List.mem_of_getElem? known
          simp only [known, Option.map_some, (reached _ member).formula_eq, made]
          simp [add, before, Branch.assumeAll]

/-- The branches of a session are what comes of their lines. -/
theorem branches_run (made : (Propagator.ofFormula formula).result = .ok propagator)
    (calls : List Call) :
    ((start propagator).run calls).branches =
      (lines calls).map (Branch.made propagator).assumeAll := by
  induction calls using List.reverseRecOn with
  | nil => rfl
  | append_singleton calls call ih =>
      have more := branches_step made (Session.reached made calls) ih call
      simpa [run, lines] using more

/-- The branch with a given number is what comes of the line with this number. -/
theorem getElem?_branches_run (made : (Propagator.ofFormula formula).result = .ok propagator)
    (calls : List Call) (slot : Nat) :
    ((start propagator).run calls).branches[slot]? =
      (lines calls)[slot]?.map (Branch.made propagator).assumeAll := by
  rw [branches_run made, List.getElem?_map]

end Session

theorem Propagator.exists_formula_of_made {strict : Bool} {clauses : List (List Literal)}
    {propagator : Propagator} (made : (ofLists strict clauses).result = .ok propagator) :
    ∃ formula, Formula.ofLists strict clauses = .ok formula ∧
      (ofFormula formula).result = .ok propagator := by
  unfold ofLists at made
  split at made
  · rename_i formula formulaMade
    exact ⟨formula, formulaMade, made⟩
  · cases made
  · cases made

/-- A propagator that was made is left behind by the derivation from the unit clauses. -/
theorem Propagator.derive_of_ofFormula {formula : Formula} {propagator : Propagator}
    (made : (ofFormula formula).result = .ok propagator) :
    ((fresh formula).derive formula.unitLiterals).propagator = propagator ∧
      ((fresh formula).derive formula.unitLiterals).stop? = none := by
  cases ended : ((fresh formula).derive formula.unitLiterals).result with
  | ok initial =>
      rw [ofFormula, ended] at made
      cases made
      exact ⟨rfl, Answer.stop?_eq_none_iff.mpr ⟨initial, ended⟩⟩
  | error stop =>
      rw [ofFormula, ended] at made
      cases made

/-- If a result passes a check that every error fails, then there is one. -/
theorem Except.exists_ok_of_any {ε α : Type} {result : Except ε α} {check : α → Bool}
    (passes : result.toOption.any check = true) :
    ∃ value, result = .ok value ∧ check value = true := by
  cases result with
  | ok value => exact ⟨value, rfl, passes⟩
  | error stop => cases passes

end UnitPropagation
