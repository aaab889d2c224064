import UnitPropagation.Dimacs.Delivery

namespace UnitPropagation
namespace Dimacs

/-!
# Receivers

A receiver that can take every clause of literals holds something when it has taken some
clauses.  The raw one holds the codes of their literals.  The other one holds the instance that
is prepared from them, and has reported the tautologies.
-/

/-- Whether a number in a clause is the code of a literal. -/
def Code.IsProper (code : Code) : Prop :=
  code.value ≠ -2147483648

namespace Receiver

variable {State Result : Type} {receiver : Receiver State Result}

/-- Whether a receiver can take every clause that is made of codes of literals. -/
def Accepts (receiver : Receiver State Result) : Prop :=
  ∀ state codes, (∀ code ∈ codes, code.IsProper) →
    ∃ next records, receiver.take state codes = .ok (next, records)

/-- Whether a receiver is in the given state when it has taken the clauses, and has made the
given reports. -/
inductive Holds (receiver : Receiver State Result) (variableCount : Nat) :
    List (List Literal) → State → List Log.Record → Prop where
  | empty : Holds receiver variableCount [] (receiver.empty variableCount) []
  | take {clauses : List (List Literal)} {state next : State} {log records : List Log.Record}
    {clause : List Literal} {codes : List Code} :
    Holds receiver variableCount clauses state log →
      codes.map Code.value = clause.map Literal.code →
        receiver.take state codes = .ok (next, records) →
          Holds receiver variableCount (clauses ++ [clause]) next (log ++ records)

variable {variableCount : Nat} {clauses : List (List Literal)} {log : List Log.Record}

theorem accepts_raw : raw.Accepts :=
  fun clauses codes _ => ⟨clauses.push (codes.map Code.value), [], rfl⟩

theorem Holds.raw {state : Array (List Int)} (holds : raw.Holds variableCount clauses state log) :
    state.toList = clauses.map (fun clause => clause.map Literal.code) ∧ log = [] := by
  induction holds with
  | empty => exact ⟨rfl, rfl⟩
  | take _ same taken ih =>
      cases taken
      rcases ih with ⟨before, rfl⟩
      simp [before, same]

/-- Collecting the literals of a clause reduces the clause. -/
theorem collect_eq {codes : List Code} : ∀ {clause kept : List Literal},
    codes.map Code.value = clause.map Literal.code →
      collect kept codes = .ok (clause.foldlM keep? kept) := by
  induction codes with
  | nil =>
      intro clause kept same
      cases clause with
      | nil => rfl
      | cons literal clause => cases same
  | cons code codes ih =>
      intro clause kept same
      cases clause with
      | nil => cases same
      | cons literal clause =>
          rcases List.cons.inj same with ⟨isCode, others⟩
          rw [collect, isCode, Literal.ofCode_code, List.foldlM_cons]
          cases more : keep? kept literal with
          | none => simp [bind, Except.bind, pure, Except.pure, more]
          | some longer => simpa [bind, Except.bind, more] using ih others

theorem skipRecord_eq {codes : List Code} {clause : List Literal}
    (same : codes.map Code.value = clause.map Literal.code) :
    skipRecord codes = Dimacs.skipRecord clause := by
  have written : codes.map (toString ∘ Code.value) = clause.map (toString ∘ Literal.code) := by
    rw [← List.map_map, same, List.map_map]
  have texts : codes.map (fun code => toString code.value) = clause.map Literal.text := written
  rw [skipRecord, Dimacs.skipRecord, texts]

theorem take_prepared {problem : Instance} {codes : List Code} {clause : List Literal}
    (same : codes.map Code.value = clause.map Literal.code) :
    prepared.take problem codes = .ok (match reduce? clause with
      | none => (problem, [Dimacs.skipRecord clause])
      | some literals => ({ problem with clauses := problem.clauses ++ [literals] }, [])) := by
  simp only [prepared, collect_eq same, reduce?, skipRecord_eq same]
  cases clause.foldlM keep? [] <;> rfl

theorem accepts_prepared : prepared.Accepts := by
  intro problem codes proper
  have exists_clause : ∃ clause : List Literal, codes.map Code.value = clause.map Literal.code := by
    induction codes with
    | nil => exact ⟨[], rfl⟩
    | cons code codes ih =>
        rcases List.forall_mem_cons.mp proper with ⟨isProper, others⟩
        rcases ih others with ⟨clause, same⟩
        have lower := code.lower
        have upper := code.upper
        have bound : code.value.natAbs < 2147483648 := by
          unfold Code.IsProper at isProper
          omega
        exact ⟨⟨code.value, code.value_ne_zero, bound⟩ :: clause, by simp [same]⟩
  rcases exists_clause with ⟨clause, same⟩
  exact ⟨_, _, take_prepared same⟩

theorem Holds.prepared {problem : Instance}
    (holds : prepared.Holds variableCount clauses problem log) :
    problem = Instance.ofContent ⟨variableCount, clauses⟩ ∧ log = skipRecords clauses := by
  induction holds with
  | empty => exact ⟨rfl, rfl⟩
  | @take clauses problem next log records clause codes _ same taken ih =>
      rcases ih with ⟨rfl, rfl⟩
      rw [take_prepared same] at taken
      cases reduced : reduce? clause with
      | none =>
          rw [reduced] at taken
          cases taken
          simp [Instance.ofContent, skipRecords, isTautology, reduced]
      | some literals =>
          rw [reduced] at taken
          cases taken
          simp [Instance.ofContent, skipRecords, isTautology, reduced]

end Receiver

end Dimacs
end UnitPropagation
