import UnitPropagation.Literal

namespace UnitPropagation

/-!
# Clauses

A clause is a nonempty list of literals, read as their disjunction.  The order of
the literals counts: propagation looks at them from the front.
-/

/-- A nonempty list of literals in the order in which they were given.  A clause may repeat a
literal, and it may have a literal together with its negation. -/
structure Clause where
  first : Literal
  rest : List Literal
deriving DecidableEq

namespace Clause

def literals (clause : Clause) : List Literal :=
  clause.first :: clause.rest

def ofList? : List Literal → Option Clause
  | [] => none
  | first :: rest => some ⟨first, rest⟩

theorem ofList?_eq_some_iff {list : List Literal} {clause : Clause} :
    ofList? list = some clause ↔ clause.literals = list := by
  cases clause
  cases list <;> simp [ofList?, literals, eq_comm]

def size (clause : Clause) : Nat :=
  clause.literals.length

/-- Whether the clause consists of a single literal.  A clause which repeats one literal does
not. -/
def isUnit (clause : Clause) : Bool :=
  clause.rest.isEmpty

def contains (clause : Clause) (literal : Literal) : Bool :=
  clause.literals.contains literal

@[simp]
theorem contains_iff {clause : Clause} {literal : Literal} :
    clause.contains literal = true ↔ literal ∈ clause.literals := by
  simp [contains]

/-- The literal at the given position of a clause, counted from zero.  There is none behind the last
one, and asking for it is a fault. -/
def get (clause : Clause) (position : Nat) : Except Fault Literal :=
  match clause.literals[position]? with
  | some literal => .ok literal
  | none => .error (.outOfRange clause.size position)

/-- Whether some variable occurs twice in the clause, no matter how it is signed. -/
def repeatsVariable (clause : Clause) : Bool :=
  !decide (clause.literals.map Literal.var).Nodup

/-- A clause is written as its literals in parentheses, with a space between any two of them. -/
def text (clause : Clause) : String :=
  "(" ++ " ".intercalate (clause.literals.map Literal.text) ++ ")"

end Clause

/-- A clause of a formula is named by its position, counted from zero. -/
abbrev ClauseId := Nat

namespace ClauseId

/-- Clause numbers have 32 bits, so that no formula has more clauses than this. -/
def limit : Nat :=
  4294967296

def ofIndex (index : Nat) : Except Fault ClauseId :=
  if index < limit then .ok index else .error .clauseCount

end ClauseId

end UnitPropagation
