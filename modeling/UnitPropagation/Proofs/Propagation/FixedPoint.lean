import UnitPropagation.Proofs.Propagation.Audit
import UnitPropagation.Proofs.Propagation.Models

namespace UnitPropagation

/-!
# An audit vouches for a fixed point

An audit only compares lists with standings and looks at one clause at a time.  It knows
nothing of the calls that led to a propagator, and the propagator need not be reached by
any.  If an audit passes where nothing waits, the units are a fixed point of unit
propagation all the same.

The two passes over the index, one over the lists and one over the standings, are the two
directions of an equivalence between them.  What the standings say about the clauses
leaves each of these at rest, and no more than this is needed to see that no clause is
falsified and that nothing is left to be forced.

Clauses may repeat literals or mention a variable with both polarities.
-/

namespace Propagator

variable {propagator : Propagator}

namespace Balanced

theorem atRest (balanced : propagator.Balanced) {clause : Clause}
    (member : clause ∈ propagator.formula.toList) : propagator.AtRest clause := by
  rcases Formula.mem_toList_iff.mp member with ⟨id, read⟩
  rcases balanced.watched_or_satisfied id clause read with
    ⟨first, second, _, different, own, free⟩ | ⟨_, satisfied⟩
  · exact Or.inr ⟨first, own.1, second, own.2, different, free⟩
  · exact Or.inl satisfied

theorem spares (balanced : propagator.Balanced) : propagator.Spares propagator.formula.lists := by
  intro list listed
  rcases List.mem_map.mp listed with ⟨clause, member, rfl⟩
  exact (balanced.atRest member).exists_not_false balanced.units_consistent

theorem mem_units_of_forced (balanced : propagator.Balanced) {list : List Literal}
    (listed : list ∈ propagator.formula.lists) {literal : Literal}
    (othersFalse : ∀ other ∈ list, other ≠ literal → -other ∈ propagator.units) :
    literal ∈ propagator.units := by
  rcases List.mem_map.mp listed with ⟨clause, member, rfl⟩
  exact (balanced.atRest member).mem_units_of_forced balanced.units_consistent othersFalse

/-- The units of a balanced propagator have no unit consequences but themselves. -/
theorem mem_units_iff (balanced : propagator.Balanced) {literal : Literal} :
    literal ∈ propagator.units ↔
      UnitConsequence propagator.formula.lists (· ∈ propagator.units) literal := by
  constructor
  · exact .given
  · intro follows
    induction follows with
    | given isUnit => exact isUnit
    | forced listed _ _ ih => exact balanced.mem_units_of_forced listed ih

end Balanced
end Propagator

/-- If an audit of any propagator passes, reached or not, and nothing waits in it, then no
literal is a unit together with its negation, a clause is listed under a literal exactly
if its standing names this literal among the two watches, and every clause is at rest.
Hence no clause is falsified, a clause whose literals are false but for one has a true
literal, and the units are closed under unit consequences. -/
theorem audit_vouches_for_fixed_point {propagator : Propagator} (queue : propagator.queue = [])
    (passes : propagator.audit = .ok ()) :
    (∀ literal ∈ propagator.units, -literal ∉ propagator.units) ∧
    (∀ literal id, propagator.watches.isListed literal id = true ↔ ∃ first second,
      propagator.watches.standing id = .ok (.watched first second) ∧
        (literal = first ∨ literal = second)) ∧
    (∀ clause ∈ propagator.formula.toList, propagator.AtRest clause) ∧
    (∀ clause ∈ propagator.formula.lists, ∃ literal ∈ clause, -literal ∉ propagator.units) ∧
    (∀ clause ∈ propagator.formula.lists, ∀ last ∈ clause,
      (∀ other ∈ clause, other ≠ last → -other ∈ propagator.units) →
        ∃ literal ∈ clause, literal ∈ propagator.units) ∧
    ∀ literal, UnitConsequence propagator.formula.lists (· ∈ propagator.units) literal →
      literal ∈ propagator.units := by
  have balanced := (Propagator.audit_eq_ok_iff_balanced queue).mp passes
  refine ⟨balanced.units_consistent, ?_, fun _ member => balanced.atRest member,
    balanced.spares, ?_, fun _ follows => balanced.mem_units_iff.mpr follows⟩
  · intro literal id
    exact (balanced.isListed_iff literal id).trans Watches.isWatch_iff_exists
  · intro clause listed last member othersFalse
    exact ⟨last, member, balanced.mem_units_of_forced listed othersFalse⟩

/-- A state that was put together by hand passes, though it is marked as inconsistent and has
a unit that no tally counts.  So the second literal does not follow from this unit. -/
theorem handmade_state_is_fixed_point :
    let first : Literal := ⟨1, by decide, by decide⟩
    let second : Literal := ⟨2, by decide, by decide⟩
    let third : Literal := ⟨3, by decide, by decide⟩
    let formula : Formula := ⟨⟨#[⟨first, [second, third]⟩, ⟨-first, [second, second]⟩]⟩, by decide⟩
    let watches : Watches :=
      ⟨.ofList [(third, {0}), (second, {0})], ⟨#[.watched third second, .retired]⟩⟩
    let propagator : Propagator := ⟨formula, watches, .ofList [-first], [], .zero, true⟩
    propagator.queue = [] ∧ propagator.audit = .ok () ∧
      propagator.watches.isListed second 0 = true ∧ propagator.watches.isListed first 0 = false ∧
      propagator.AtRest ⟨first, [second, third]⟩ ∧
      ¬UnitConsequence propagator.formula.lists (· ∈ propagator.units) second := by
  intro first second third formula watches propagator
  have passes : propagator.audit = .ok () := rfl
  have queue : propagator.queue = [] := rfl
  rcases audit_vouches_for_fixed_point queue passes with
    ⟨_, isListed_iff, atRest, _, _, closed⟩
  refine ⟨queue, passes, ?_, ?_, ?_, ?_⟩
  · exact (isListed_iff second 0).mpr ⟨third, second, rfl, Or.inr rfl⟩
  · rfl
  · exact atRest _ List.mem_cons_self
  · intro follows
    have isUnit := Std.TreeSet.contains_iff_mem.mpr (closed second follows)
    cases isUnit

end UnitPropagation
