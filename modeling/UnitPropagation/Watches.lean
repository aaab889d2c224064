import Std.Data.TreeMap.Lemmas
import Std.Data.TreeSet.Lemmas
import UnitPropagation.Formula

namespace UnitPropagation

/-!
# Watches

Every clause of two or more literals is watched by two of them.  As long as
neither has become false, the clause forces nothing and need not be looked at.

Watches are kept twice: `standings` has for every clause the literals that watch
it, and `watchers` has for every literal the clauses which it watches.  The two
agree while nothing is propagated.  Nothing here enforces that; it is a fact about
the states which propagation reaches.
-/

/-- How a clause takes part in propagation.  A clause of a single literal is a unit from the start
and never watched; a retired clause is satisfied and no longer watched. -/
inductive Standing where
  | watched (first second : Literal)
  | unit
  | retired
deriving DecidableEq

namespace Standing

/-- At first a clause is watched by its first two literals. -/
def initial (clause : Clause) : Standing :=
  match clause.rest with
  | [] => .unit
  | second :: _ => .watched clause.first second

/-- Whether a literal is one of the two that watch a clause of this standing. -/
def isWatchedBy : Standing → Literal → Bool
  | .watched first second, literal => first == literal || second == literal
  | .unit, _ | .retired, _ => false

/-- The watched literal beside `falseLiteral`.  It is a fault to ask for it if the clause is not
watched by `falseLiteral`. -/
def partner (standing : Standing) (id : ClauseId) (falseLiteral : Literal) :
    Except Fault Literal :=
  match standing with
  | .watched first second =>
    if first = falseLiteral then .ok second
    else if second = falseLiteral then .ok first
    else .error (.strayVisit id falseLiteral.code)
  | .unit | .retired => .error (.idleVisit id falseLiteral.code)

end Standing

/-- The clauses that each literal watches, and the standing of each clause. -/
structure Watches where
  watchers : Std.TreeMap Literal (Std.TreeSet ClauseId)
  standings : Table Standing

namespace Watches

def empty : Watches :=
  ⟨∅, .empty⟩

def watchersOf (watches : Watches) (literal : Literal) : Std.TreeSet ClauseId :=
  watches.watchers.getD literal ∅

def isListed (watches : Watches) (literal : Literal) (id : ClauseId) : Bool :=
  (watches.watchersOf literal).contains id

def standing (watches : Watches) (id : ClauseId) : Except Fault Standing :=
  watches.standings.get id

/-- The index with a clause listed under a literal.  The standing of the clause is left as it is,
here and when it is struck from a list. -/
def enlist (watches : Watches) (literal : Literal) (id : ClauseId) : Watches :=
  { watches with
    watchers := watches.watchers.alter literal fun ids => some ((ids.getD ∅).insert id) }

/-- The index with a clause struck from the list of a literal; a list that becomes empty is
dropped. -/
def strike (watches : Watches) (literal : Literal) (id : ClauseId) : Watches :=
  { watches with
    watchers := watches.watchers.alter literal fun
      | none => none
      | some ids => if (ids.erase id).isEmpty then none else some (ids.erase id) }

/-- The clauses watched by a literal in ascending order, together with the index
without the literal's list.  The clauses keep their standing, which still names the literal. -/
def take (watches : Watches) (literal : Literal) : List ClauseId × Watches :=
  ((watches.watchersOf literal).toList,
    { watches with watchers := watches.watchers.erase literal })

/-- The index in which a clause is watched by two literals, the first of which watched
it before. -/
def watch (watches : Watches) (id : ClauseId) (first second : Literal) : Watches :=
  let standing := { watches with standings := watches.standings.put id (.watched first second) }
  (standing.enlist first id).enlist second id

/-- The index in which a clause of the given standing is no longer watched. -/
def retire (watches : Watches) (id : ClauseId) (standing : Standing) : Watches :=
  let struck :=
    match standing with
    | .watched first second => (watches.strike first id).strike second id
    | .unit | .retired => watches
  { struck with standings := struck.standings.put id .retired }

/-- The index with one more clause, which gets the next number. -/
def add (watches : Watches) (clause : Clause) : Watches :=
  let id := watches.standings.nextKey
  let numbered := { watches with standings := watches.standings.push (.initial clause) }
  match Standing.initial clause with
  | .watched first second => (numbered.enlist first id).enlist second id
  | .unit | .retired => numbered

def ofFormula (formula : Formula) : Watches :=
  formula.toList.foldl add empty

/-! Each operation is described by what it does to the lists, through `isListed`. -/

private theorem compare_beq_eq (id clause : ClauseId) :
    (compare id clause == .eq) = decide (clause = id) := by
  rw [Bool.eq_iff_iff, beq_iff_eq, Std.LawfulEqCmp.compare_eq_iff_eq, decide_eq_true_eq]
  exact eq_comm

@[simp]
theorem isListed_empty (literal : Literal) (id : ClauseId) :
    empty.isListed literal id = false := by
  simp [isListed, watchersOf, empty]

theorem isListed_iff {watches : Watches} {literal : Literal} {id : ClauseId} :
    watches.isListed literal id = true ↔ id ∈ watches.watchersOf literal := by
  simp [isListed]

theorem isListed_enlist (watches : Watches) (literal other : Literal) (id clause : ClauseId) :
    (watches.enlist literal id).isListed other clause =
      (decide (other = literal ∧ clause = id) || watches.isListed other clause) := by
  simp only [isListed, watchersOf, enlist, Std.TreeMap.getD_eq_getD_getElem?,
    Std.TreeMap.getElem?_alter, Std.LawfulEqCmp.compare_eq_iff_eq]
  by_cases same : literal = other
  · subst same
    simp [Std.TreeSet.contains_insert, compare_beq_eq]
  · simp [same, Ne.symm same]

theorem isListed_strike (watches : Watches) (literal other : Literal) (id clause : ClauseId) :
    (watches.strike literal id).isListed other clause =
      (!decide (other = literal ∧ clause = id) && watches.isListed other clause) := by
  simp only [isListed, watchersOf, strike, Std.TreeMap.getD_eq_getD_getElem?,
    Std.TreeMap.getElem?_alter, Std.LawfulEqCmp.compare_eq_iff_eq]
  by_cases same : literal = other
  · subst same
    cases found : watches.watchers[literal]? with
    | none => simp
    | some ids =>
      have remaining : (ids.erase id).contains clause =
          (!decide (clause = id) && ids.contains clause) := by
        rw [Std.TreeSet.contains_erase, ← compare_beq_eq]
        rfl
      cases empties : (ids.erase id).isEmpty with
      | true =>
        rw [Std.TreeSet.contains_of_isEmpty empties] at remaining
        simpa [empties] using remaining
      | false => simpa [empties] using remaining
  · simp [same, Ne.symm same]

theorem isListed_take (watches : Watches) (literal other : Literal) (clause : ClauseId) :
    (watches.take literal).2.isListed other clause =
      (!decide (other = literal) && watches.isListed other clause) := by
  simp only [isListed, watchersOf, take, Std.TreeMap.getD_eq_getD_getElem?,
    Std.TreeMap.getElem?_erase, Std.LawfulEqCmp.compare_eq_iff_eq]
  by_cases same : literal = other
  · subst same
    simp
  · simp [same, Ne.symm same]

theorem mem_take {watches : Watches} {literal : Literal} {id : ClauseId} :
    id ∈ (watches.take literal).1 ↔ watches.isListed literal id = true := by
  simp [take, isListed]

end Watches

end UnitPropagation
