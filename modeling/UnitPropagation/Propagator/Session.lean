import UnitPropagation.Propagator.History

namespace UnitPropagation

/-!
# Sessions

A session works on several propagators, which are numbered in the order in which
they came up.  A clone goes on from where its origin stood, and a restarted
propagator begins anew with the formula of another one.

A `Branch` is a propagator together with what happened on its line of descent, that
is in the calls on itself and, before it was cloned, in those on its origin.
-/

/-- A propagator with its line of descent: the literals which were assumed on the line, in their
order, and whether every call on the line ended well. -/
structure Branch where
  propagator : Propagator
  assumptions : List Literal
  wentWell : Bool

namespace Branch

def made (propagator : Propagator) : Branch :=
  ⟨propagator, [], true⟩

def assume (branch : Branch) (literals : List Literal) : Branch :=
  let answer := branch.propagator.assume literals
  { propagator := answer.propagator
    assumptions := branch.assumptions ++ literals
    wentWell := branch.wentWell && answer.result.toBool }

def assumeOne (branch : Branch) (literal : Literal) : Branch :=
  let answer := branch.propagator.assumeOne literal
  { propagator := answer.propagator
    assumptions := branch.assumptions ++ [literal]
    wentWell := branch.wentWell && answer.result.toBool }

def assumeAll (branch : Branch) (batches : List (List Literal)) : Branch :=
  batches.foldl assume branch

theorem assumeOne_eq_assume (branch : Branch) (literal : Literal) :
    branch.assumeOne literal = branch.assume [literal] :=
  rfl

end Branch

/-- A call on the propagator with the given number.  Cloning and restarting add a propagator. -/
inductive Call where
  | assume (slot : Nat) (literals : List Literal)
  | assumeOne (slot : Nat) (literal : Literal)
  | clone (slot : Nat)
  | restart (slot : Nat)
deriving DecidableEq

structure Session where
  branches : List Branch

namespace Session

def start (propagator : Propagator) : Session :=
  ⟨[.made propagator]⟩

def add (session : Session) (branch : Branch) : Session :=
  ⟨session.branches ++ [branch]⟩

def put (session : Session) (slot : Nat) (branch : Branch) : Session :=
  ⟨session.branches.set slot branch⟩

/-- Carries out a call.  A call on a propagator that does not exist does nothing. -/
def step (session : Session) : Call → Session
  | .assume slot literals =>
    match session.branches[slot]? with
    | some branch => session.put slot (branch.assume literals)
    | none => session
  | .assumeOne slot literal =>
    match session.branches[slot]? with
    | some branch => session.put slot (branch.assumeOne literal)
    | none => session
  | .clone slot =>
    match session.branches[slot]? with
    | some branch => session.add branch
    | none => session
  | .restart slot =>
    match session.branches[slot]? with
    | some branch =>
      match (Propagator.ofFormula branch.propagator.formula).result with
      | .ok propagator => session.add (.made propagator)
      | .error _ => session
    | none => session

def run (session : Session) (calls : List Call) : Session :=
  calls.foldl step session

/-- What holds of every branch is preserved by a call, if it is preserved by assuming
literals and holds of propagators which are made for the same formula. -/
theorem forall_step {motive : Branch → Prop} {session : Session}
    (assumed : ∀ {branch} literals, motive branch → motive (branch.assume literals))
    (restarted : ∀ {branch propagator}, motive branch →
      (Propagator.ofFormula branch.propagator.formula).result = .ok propagator →
        motive (.made propagator))
    (holds : ∀ branch ∈ session.branches, motive branch) (call : Call) :
    ∀ branch ∈ (session.step call).branches, motive branch := by
  have put : ∀ {branch}, motive branch → ∀ slot,
      ∀ other ∈ (session.put slot branch).branches, motive other := by
    intro branch isGood slot other member
    rcases List.mem_or_eq_of_mem_set member with isOld | rfl
    · exact holds other isOld
    · exact isGood
  have add : ∀ {branch}, motive branch →
      ∀ other ∈ (session.add branch).branches, motive other := by
    intro branch isGood other member
    rcases List.mem_append.mp member with isOld | isNew
    · exact holds other isOld
    · cases List.mem_singleton.mp isNew
      exact isGood
  cases call with
  | assume slot literals =>
      simp only [step]
      split
      · rename_i branch found
        exact put (assumed literals (holds branch (List.mem_of_getElem? found))) slot
      · exact holds
  | assumeOne slot literal =>
      simp only [step]
      split
      · rename_i branch found
        exact put (assumed [literal] (holds branch (List.mem_of_getElem? found))) slot
      · exact holds
  | clone slot =>
      simp only [step]
      split
      · rename_i branch found
        exact add (holds branch (List.mem_of_getElem? found))
      · exact holds
  | restart slot =>
      simp only [step]
      split
      · rename_i branch found
        split
        · rename_i propagator isMade
          exact add (restarted (holds branch (List.mem_of_getElem? found)) isMade)
        · exact holds
      · exact holds

/-- Hence it holds after any run of calls, if it holds at the start. -/
theorem forall_run {motive : Branch → Prop} {propagator : Propagator}
    (assumed : ∀ {branch} literals, motive branch → motive (branch.assume literals))
    (restarted : ∀ {branch propagator}, motive branch →
      (Propagator.ofFormula branch.propagator.formula).result = .ok propagator →
        motive (.made propagator))
    (made : motive (.made propagator)) (calls : List Call) :
    ∀ branch ∈ ((start propagator).run calls).branches, motive branch := by
  have general : ∀ (calls : List Call) (session : Session),
      (∀ branch ∈ session.branches, motive branch) →
        ∀ branch ∈ (session.run calls).branches, motive branch := by
    intro calls
    induction calls with
    | nil =>
        intro session holds
        exact holds
    | cons call calls ih =>
        intro session holds
        exact ih (session.step call) (forall_step assumed restarted holds call)
  apply general calls (start propagator)
  intro branch member
  cases List.mem_singleton.mp member
  exact made

end Session
end UnitPropagation
