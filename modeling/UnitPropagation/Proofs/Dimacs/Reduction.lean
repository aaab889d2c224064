import Mathlib.Data.List.Induction
import Mathlib.Data.List.Nodup
import UnitPropagation.Dimacs.Instance
import UnitPropagation.Meaning.Consequence

namespace UnitPropagation

/-!
# Preparing clauses

A prepared clause consists of the distinct literals of a clause, in the order of their
first occurrence, and tautologies are left out.  Neither makes a difference for unit
consequences, as long as they are consistent.  Read as sets, a clause and the prepared one
are the same.  A tautology forces one of its two opposite literals only if this literal
follows anyway, and any other literal only if both of them follow.  So what is lost with the
tautologies is lost only behind a contradiction, and the contradiction itself is not lost.
-/

theorem Literal.eq_or_eq_neg_of_var_eq {first second : Literal} (same : first.var = second.var) :
    first = second ∨ first = -second := by
  have sizes : first.code.natAbs = second.code.natAbs := congrArg Variable.index same
  rcases Int.natAbs_eq_natAbs_iff.mp sizes with codes | codes
  · exact Or.inl (Literal.ext_code codes)
  · exact Or.inr (Literal.ext_code codes)

/-- A literal stands behind the distinct ones before it, unless it is one of them. -/
theorem eraseDups_concat (front : List Literal) (literal : Literal) :
    (front ++ [literal]).eraseDups =
      if literal ∈ front then front.eraseDups else front.eraseDups ++ [literal] := by
  rw [List.eraseDups_append]
  by_cases known : literal ∈ front
  · simp [known, List.removeAll]
  · simp [known, List.removeAll, List.eraseDups_cons]

theorem nodup_eraseDups (literals : List Literal) : literals.eraseDups.Nodup := by
  induction literals using List.reverseRecOn with
  | nil => exact List.nodup_nil
  | append_singleton front literal ih =>
      rw [eraseDups_concat]
      split
      · exact ih
      · rename_i new
        rw [← List.concat_eq_append]
        exact ih.concat fun known => new (List.mem_eraseDups.mp known)

namespace Dimacs

def Tautological (clause : List Literal) : Prop :=
  ∃ literal ∈ clause, -literal ∈ clause

instance (clause : List Literal) : Decidable (Tautological clause) :=
  inferInstanceAs (Decidable (∃ literal ∈ clause, -literal ∈ clause))

theorem tautological_concat {front : List Literal} {literal : Literal} :
    Tautological (front ++ [literal]) ↔ Tautological front ∨ -literal ∈ front := by
  simp only [Tautological, List.mem_append, List.mem_singleton]
  constructor
  · rintro ⟨other, isOld | rfl, negIsOld | negIsNew⟩
    · exact Or.inl ⟨other, isOld, negIsOld⟩
    · refine Or.inr ?_
      rw [← negIsNew, Literal.neg_neg]
      exact isOld
    · exact Or.inr negIsOld
    · exact absurd negIsNew (Literal.neg_ne_self other)
  · rintro (⟨other, isOld, negIsOld⟩ | negIsOld)
    · exact ⟨other, Or.inl isOld, Or.inl negIsOld⟩
    · exact ⟨literal, Or.inr rfl, Or.inl negIsOld⟩

/-- A clause is prepared by leaving out repetitions, unless it is a tautology. -/
theorem reduce?_eq (clause : List Literal) :
    reduce? clause = if Tautological clause then none else some clause.eraseDups := by
  induction clause using List.reverseRecOn with
  | nil => simp [reduce?, Tautological]
  | append_singleton front literal ih =>
      have step : reduce? (front ++ [literal]) =
          (reduce? front).bind fun kept => keep? kept literal := by
        simp [reduce?]
      rw [step, ih, eraseDups_concat]
      by_cases before : Tautological front
      · simp [before, tautological_concat]
      · by_cases meets : -literal ∈ front
        · simp [before, meets, tautological_concat, keep?]
        · by_cases known : literal ∈ front <;> simp [before, meets, known, tautological_concat, keep?]

theorem reduce?_eq_some_iff {clause reduced : List Literal} :
    reduce? clause = some reduced ↔ ¬Tautological clause ∧ clause.eraseDups = reduced := by
  rw [reduce?_eq]
  split <;> simp_all

theorem nodup_var_of_reduce? {clause reduced : List Literal} (kept : reduce? clause = some reduced) :
    (reduced.map Literal.var).Nodup := by
  rcases reduce?_eq_some_iff.mp kept with ⟨sound, rfl⟩
  refine (nodup_eraseDups clause).map_on ?_
  intro first firstMem second secondMem same
  rcases Literal.eq_or_eq_neg_of_var_eq same with equal | opposite
  · exact equal
  · refine absurd ⟨second, List.mem_eraseDups.mp secondMem, ?_⟩ sound
    rw [← opposite]
    exact List.mem_eraseDups.mp firstMem

variable {clauses : List (List Literal)} {given : Literal → Prop}

theorem mem_prepared_iff {reduced : List Literal} :
    reduced ∈ clauses.filterMap reduce? ↔
      ∃ clause ∈ clauses, ¬Tautological clause ∧ clause.eraseDups = reduced := by
  simp only [List.mem_filterMap, reduce?_eq_some_iff]

theorem distinct_prepared :
    ∀ clause ∈ clauses.filterMap reduce?, (clause.map Literal.var).Nodup := by
  intro clause member
  rcases List.mem_filterMap.mp member with ⟨_, _, kept⟩
  exact nodup_var_of_reduce? kept

theorem nil_mem_prepared_iff : [] ∈ clauses.filterMap reduce? ↔ [] ∈ clauses := by
  rw [mem_prepared_iff]
  constructor
  · rintro ⟨clause, member, _, isEmpty⟩
    have noLiteral : ∀ literal, literal ∉ clause := by
      intro literal inside
      have impossible := List.mem_eraseDups.mpr inside
      rw [isEmpty] at impossible
      cases impossible
    exact List.eq_nil_iff_forall_not_mem.mpr noLiteral ▸ member
  · intro member
    exact ⟨[], member, by simp [Tautological], rfl⟩

/-- Prepared clauses have no other unit consequences than the clauses themselves. -/
theorem unitConsequence_of_prepared {literal : Literal}
    (follows : UnitConsequence (clauses.filterMap reduce?) given literal) :
    UnitConsequence clauses given literal := by
  induction follows with
  | given isGiven => exact .given isGiven
  | forced isPrepared literalMem _ ih =>
      rcases mem_prepared_iff.mp isPrepared with ⟨clause, member, _, rfl⟩
      refine .forced member (List.mem_eraseDups.mp literalMem) ?_
      intro other otherMem different
      exact ih other (List.mem_eraseDups.mpr otherMem) different

/-- Unit consequences of the clauses are not lost by preparing them, as long as the
consequences of the prepared clauses do not contradict each other within a clause. -/
theorem unitConsequence_prepared
    (apart : ¬ContradictoryWithin clauses (UnitConsequence (clauses.filterMap reduce?) given))
    {literal : Literal} (follows : UnitConsequence clauses given literal) :
    UnitConsequence (clauses.filterMap reduce?) given literal := by
  induction follows with
  | given isGiven => exact .given isGiven
  | @forced clause literal member literalMem _ ih =>
      by_cases tautological : Tautological clause
      · rcases tautological with ⟨positive, positiveMem, negativeMem⟩
        by_cases isPositive : positive = literal
        · have opposite := ih (-positive) negativeMem (isPositive ▸ Literal.neg_ne_self positive)
          rw [Literal.neg_neg] at opposite
          exact isPositive ▸ opposite
        · have opposite := ih positive positiveMem isPositive
          by_cases isNegative : -positive = literal
          · exact isNegative ▸ opposite
          · have follows := ih (-positive) negativeMem isNegative
            rw [Literal.neg_neg] at follows
            exact absurd ⟨clause, member, positive, positiveMem, negativeMem, follows, opposite⟩ apart
      · refine .forced (mem_prepared_iff.mpr ⟨clause, member, tautological, rfl⟩)
          (List.mem_eraseDups.mpr literalMem) ?_
        intro other otherMem different
        exact ih other (List.mem_eraseDups.mp otherMem) different

theorem contradictory_prepared_iff :
    Contradictory (UnitConsequence (clauses.filterMap reduce?) given) ↔
      Contradictory (UnitConsequence clauses given) := by
  constructor
  · rintro ⟨literal, follows, negationFollows⟩
    exact ⟨literal, unitConsequence_of_prepared follows, unitConsequence_of_prepared negationFollows⟩
  · rintro ⟨literal, follows, negationFollows⟩
    by_contra consistent
    have apart : ¬ContradictoryWithin clauses (UnitConsequence (clauses.filterMap reduce?) given) :=
      mt ContradictoryWithin.contradictory consistent
    exact consistent ⟨literal, unitConsequence_prepared apart follows,
      unitConsequence_prepared apart negationFollows⟩

/-- Preparing clauses does not change their unit consequences, unless two of these contradict
each other within one clause. -/
theorem unitConsequence_prepared_iff
    (apart : ¬ContradictoryWithin clauses (UnitConsequence clauses given)) {literal : Literal} :
    UnitConsequence (clauses.filterMap reduce?) given literal ↔
      UnitConsequence clauses given literal :=
  ⟨unitConsequence_of_prepared,
    unitConsequence_prepared (mt (.mono fun _ => unitConsequence_of_prepared) apart)⟩

end Dimacs
end UnitPropagation
