import UnitPropagation.Conflict
import UnitPropagation.Table

namespace UnitPropagation

/-!
# Formulas

A formula is a conjunction of numbered clauses.  It is made from lists of literals
in their order; the first empty list is a conflict.  A *strict* formula moreover
refuses clauses that mention a variable twice.

Such clauses are not excluded from other formulas, and propagation takes them as
they stand: a literal which occurs twice in a clause counts as two literals.
-/

/-- A sequence of clauses which does not exceed the supply of clause numbers. -/
structure Formula where
  clauses : Table Clause
  size_le : clauses.size ≤ ClauseId.limit

namespace Formula

def empty : Formula where
  clauses := .empty
  size_le := by decide

def size (formula : Formula) : Nat :=
  formula.clauses.size

def toList (formula : Formula) : List Clause :=
  formula.clauses.toList

def clause (formula : Formula) (id : ClauseId) : Except Fault Clause :=
  formula.clauses.get id

def entries (formula : Formula) : List (ClauseId × Clause) :=
  formula.clauses.entries

/-- The literals of the unit clauses, in the order of the clauses.  They are the units with which
propagation begins. -/
def unitLiterals (formula : Formula) : List Literal :=
  formula.toList.filterMap fun clause => if clause.isUnit then some clause.first else none

/-- The formula with one more clause.  An empty list is a conflict, which names the number that the
clause would have had; a strict formula refuses clauses that mention a variable twice. -/
def push (strict : Bool) (formula : Formula) (literals : List Literal) : Except Stop Formula :=
  match Clause.ofList? literals with
  | none =>
    match ClauseId.ofIndex formula.size with
    | .ok id => .error (.conflict (.emptyClause id))
    | .error fault => .error (.fault fault)
  | some clause =>
    if strict && clause.repeatsVariable then .error (.fault .repeatedVariable)
    else if room : formula.clauses.size < ClauseId.limit then
      .ok ⟨formula.clauses.push clause, by rw [Table.size_push]; exact room⟩
    else .error (.fault .clauseCount)

/-- The formula with the given clauses.  The first of them which cannot be pushed decides what
becomes of all. -/
def ofLists (strict : Bool) (clauses : List (List Literal)) : Except Stop Formula :=
  clauses.foldlM (push strict) empty

/-- A pushed clause stands behind the others, with its literals in their order. -/
theorem literals_of_push {strict : Bool} {formula longer : Formula} {literals : List Literal}
    (pushed : formula.push strict literals = .ok longer) :
    longer.toList.map Clause.literals = formula.toList.map Clause.literals ++ [literals] := by
  unfold push at pushed
  split at pushed
  · split at pushed <;> cases pushed
  · rename_i clause given
    split at pushed
    · cases pushed
    · split at pushed
      · cases pushed
        simp [toList, Clause.ofList?_eq_some_iff.mp given]
      · cases pushed

/-- A formula consists of the lists that it was made from. -/
theorem literals_of_ofLists {strict : Bool} {clauses : List (List Literal)} {formula : Formula}
    (made : ofLists strict clauses = .ok formula) :
    formula.toList.map Clause.literals = clauses := by
  have general : ∀ (remaining : List (List Literal)) (start : Formula),
      remaining.foldlM (push strict) start = .ok formula →
        formula.toList.map Clause.literals = start.toList.map Clause.literals ++ remaining := by
    intro remaining
    induction remaining with
    | nil =>
      intro start finished
      cases finished
      simp
    | cons literals remaining ih =>
      intro start finished
      rw [List.foldlM_cons] at finished
      cases pushed : start.push strict literals with
      | error stop =>
        rw [pushed] at finished
        cases finished
      | ok longer =>
        rw [pushed] at finished
        rw [ih longer finished, literals_of_push pushed]
        simp
  simpa [empty, toList, Table.empty, Table.toList] using general clauses empty made

end Formula

end UnitPropagation
