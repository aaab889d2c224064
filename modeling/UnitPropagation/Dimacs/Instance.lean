import UnitPropagation.Clause
import UnitPropagation.Dimacs.Source
import UnitPropagation.Log

namespace UnitPropagation
namespace Dimacs

/-!
# Instances

An instance is the content of a text, prepared for propagation: in each clause
only the first of equal literals stays, and clauses with a literal and its negation
are left out, since they say nothing.
-/

/-- Prepared clauses over the declared variables.  Not all of the variables need to occur. -/
structure Instance where
  variableCount : Nat
  clauses : List (List Literal)
deriving DecidableEq

/-- Puts a literal behind those kept so far, unless it is among them; nothing is kept
once a literal and its negation have met. -/
def keep? (kept : List Literal) (literal : Literal) : Option (List Literal) :=
  if kept.contains (-literal) then none
  else if kept.contains literal then some kept
  else some (kept ++ [literal])

/-- The distinct literals of a clause in the order of their first occurrence, unless
the clause is a tautology. -/
def reduce? (clause : List Literal) : Option (List Literal) :=
  clause.foldlM keep? []

def isTautology (clause : List Literal) : Bool :=
  (reduce? clause).isNone

/-- The record about a clause which is left out. -/
def skipRecord (clause : List Literal) : Log.Record where
  level := .debug
  message := "Skipping tautological clause (" ++
    " ".intercalate (clause.map Literal.text) ++ ")"

def skipRecords (clauses : List (List Literal)) : List Log.Record :=
  (clauses.filter isTautology).map skipRecord

def Instance.ofContent (content : Content) : Instance where
  variableCount := content.variableCount
  clauses := content.clauses.filterMap reduce?

/-- The literal with the given code, if its variable is one of the declared variables. -/
def assumption? (variableCount : Nat) (code : Int) : Option Literal :=
  match Literal.ofCode code with
  | .ok literal => if literal.var.index ≤ variableCount then some literal else none
  | .error _ => none

theorem assumption?_eq_some_iff {variableCount : Nat} {code : Int} {literal : Literal} :
    assumption? variableCount code = some literal ↔
      literal.code = code ∧ code.natAbs ≤ variableCount := by
  unfold assumption?
  cases read : Literal.ofCode code with
  | ok other =>
      cases Literal.ofCode_eq_ok_iff.mp read
      dsimp only
      rw [Option.ite_none_right_eq_some, Option.some.injEq]
      constructor
      · rintro ⟨bound, rfl⟩
        exact ⟨rfl, bound⟩
      · rintro ⟨same, bound⟩
        exact ⟨bound, (Literal.ext_code same).symm⟩
  | error fault =>
      simp only [reduceCtorEq, false_iff, not_and]
      rintro isCode
      cases read.symm.trans (Literal.ofCode_eq_ok_iff.mpr isCode)

end Dimacs
end UnitPropagation
