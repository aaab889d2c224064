import UnitPropagation.Propagator.Line

namespace UnitPropagation

/-!
# Feeding literals

Literals can be given to a propagator in two ways: as unit clauses, anywhere among
the clauses from which it is made, and as assumptions, in calls on the propagator and
on its clones.  A feeding of a set of literals gives each of them in one way or the
other, or in both, in any order, in any batches and with any repetitions.
-/

/-- Whether the longer list consists of the clauses, in their order, and of unit clauses
of the given literals, anywhere among them. -/
inductive Interspersed : List (List Literal) → List Literal → List (List Literal) → Prop where
  | nil : Interspersed [] [] []
  | clause {clauses longer : List (List Literal)} {units : List Literal} (clause : List Literal) :
    Interspersed clauses units longer → Interspersed (clause :: clauses) units (clause :: longer)
  | unit {clauses longer : List (List Literal)} {units : List Literal} (literal : Literal) :
    Interspersed clauses units longer →
      Interspersed clauses (literal :: units) ([literal] :: longer)

theorem Interspersed.mem_iff {clauses longer : List (List Literal)} {units : List Literal}
    (interspersed : Interspersed clauses units longer) {clause : List Literal} :
    clause ∈ longer ↔ clause ∈ clauses ∨ ∃ literal ∈ units, clause = [literal] := by
  induction interspersed with
  | nil => simp
  | clause _ _ ih => simp only [List.mem_cons, ih, or_assoc]
  | unit literal _ ih =>
    simp only [List.mem_cons, ih, exists_eq_or_imp]
    exact or_left_comm

/-- A way of giving a set of literals to a propagator for some clauses.  The unit clauses
are among the clauses from which the propagator is made, and the assumptions are those on
the line of one propagator of a session, which may go on with clones and do anything
with other propagators. -/
structure Feeding (clauses : List (List Literal)) (literals : Std.TreeSet Literal) where
  units : List Literal
  extended : List (List Literal)
  interspersed : Interspersed clauses units extended
  calls : List Call
  slot : Nat
  line : List (List Literal)
  line_eq : (Session.lines calls)[slot]? = some line
  mem_iff : ∀ literal, literal ∈ literals ↔ literal ∈ units ∨ literal ∈ line.flatten

namespace Feeding

variable {clauses : List (List Literal)} {literals : Std.TreeSet Literal}

/-- The propagator from which the feeding begins, unless it cannot be made. -/
def made (feeding : Feeding clauses literals) : Except Stop Propagator :=
  (Propagator.ofLists false feeding.extended).result

/-- Whether a conflict was met, when the propagator was made or in a call on the line. -/
def MeetsConflict (feeding : Feeding clauses literals) : Prop :=
  ∃ conflict, feeding.made = .error (.conflict conflict) ∨
    ∃ propagator, feeding.made = .ok propagator ∧
      propagator.failure? feeding.line = some (.conflict conflict)

/-- Whether the propagator was made, every call on the line ended well, and this is the
branch at the end of the line. -/
def EndsWellIn (feeding : Feeding clauses literals) (branch : Branch) : Prop :=
  ∃ propagator, feeding.made = .ok propagator ∧
    ((Session.start propagator).run feeding.calls).branches[feeding.slot]? = some branch ∧
      branch.wentWell = true

end Feeding

end UnitPropagation
