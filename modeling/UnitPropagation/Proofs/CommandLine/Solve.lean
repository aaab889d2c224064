import UnitPropagation.Proofs.CommandLine.Lines
import UnitPropagation.Proofs.Dimacs.Reduction
import UnitPropagation.Proofs.Propagation.Closure

namespace UnitPropagation

/-!
# Solving instances

Numbers are codes of literals over the declared variables or not.  Prepared clauses make
a formula or have an empty one among them.  Propagation finds the unit consequences or a
contradiction.  In each case the printed lines are the right answer for the clauses as
they were read.
-/

/-- Without opposite literals, the literals of a set come in the strict order of their variables. -/
theorem Literal.pairwise_toList {literals : Std.TreeSet Literal}
    (consistent : ∀ literal ∈ literals, -literal ∉ literals) :
    literals.toList.Pairwise fun first second => first.var.index < second.var.index := by
  have ordered : literals.toList.Pairwise fun first second => compare first second = .lt :=
    Std.TreeSet.ordered_toList
  refine ordered.imp_of_mem ?_
  intro first second firstMem secondMem order
  have ranks : first.rank < second.rank := Nat.compare_eq_lt.mp order
  have different : first.var.index ≠ second.var.index := by
    intro same
    have sameVar : first.var = second.var := by
      cases first
      cases second
      simpa [var] using same
    rcases eq_or_eq_neg_of_var_eq sameVar with rfl | rfl
    · exact Nat.lt_irrefl _ ranks
    · exact consistent second (Std.TreeSet.mem_toList.mp secondMem)
        (Std.TreeSet.mem_toList.mp firstMem)
  simp only [rank, var] at ranks different ⊢
  split at ranks <;> split at ranks <;> omega

namespace CommandLine

open Dimacs

variable {variableCount : Nat}

theorem exists_assumption? {code : Int} (isAssumption : IsAssumption variableCount code)
    (inRange : -2147483648 ≤ code ∧ code < 2147483648) :
    ∃ literal, assumption? variableCount code = some literal ∧ literal.code = code := by
  rcases isAssumption with ⟨nonzero, notLowest, bound⟩
  have small : code.natAbs < 2147483648 := by omega
  exact ⟨⟨code, nonzero, small⟩, assumption?_eq_some_iff.mpr ⟨rfl, bound⟩, rfl⟩

theorem assumption?_eq_none {code : Int} (invalid : ¬IsAssumption variableCount code) :
    assumption? variableCount code = none := by
  apply Option.eq_none_iff_forall_ne_some.mpr
  intro literal read
  rcases assumption?_eq_some_iff.mp read with ⟨rfl, bound⟩
  have small := literal.natAbs_code_lt
  exact invalid ⟨literal.code_ne_zero, by omega, bound⟩

/-- If all numbers are codes, the literals with these codes are assumed, in their order. -/
theorem readAssumptions_eq_ok {codes : List Int}
    (inRange : ∀ code ∈ codes, -2147483648 ≤ code ∧ code < 2147483648)
    (valid : ∀ code ∈ codes, IsAssumption variableCount code) :
    ∃ literals, readAssumptions variableCount codes = .ok literals ∧
      literals.map Literal.code = codes := by
  induction codes with
  | nil => exact ⟨[], rfl, rfl⟩
  | cons code codes ih =>
      rcases List.forall_mem_cons.mp inRange with ⟨codeInRange, othersInRange⟩
      rcases List.forall_mem_cons.mp valid with ⟨codeValid, othersValid⟩
      rcases exists_assumption? codeValid codeInRange with ⟨literal, read, rfl⟩
      rcases ih othersInRange othersValid with ⟨literals, others, rfl⟩
      rw [readAssumptions] at others
      refine ⟨literal :: literals, ?_, rfl⟩
      rw [readAssumptions, List.mapM_cons, read, others]
      rfl

/-- If not all numbers are codes, there is a first one which is none. -/
theorem exists_first_invalid {codes : List Int}
    (invalid : ¬∀ code ∈ codes, IsAssumption variableCount code) :
    ∃ before code after, codes = before ++ code :: after ∧
      (∀ earlier ∈ before, IsAssumption variableCount earlier) ∧ ¬IsAssumption variableCount code := by
  let isInvalid := fun code => !decide (IsAssumption variableCount code)
  cases found : codes.find? isInvalid with
  | none =>
      refine absurd ?_ invalid
      intro code member
      simpa [isInvalid] using List.find?_eq_none.mp found code member
  | some code =>
      rcases List.find?_eq_some_iff_append.mp found with ⟨codeInvalid, before, after, cut, valid⟩
      refine ⟨before, code, after, cut, ?_, by simpa [isInvalid] using codeInvalid⟩
      intro earlier member
      simpa [isInvalid] using valid earlier member

/-- The first number which is no code decides the failure, whatever stands behind it. -/
theorem readAssumptions_eq_error {before after : List Int} {code : Int}
    (inRange : ∀ earlier ∈ before, -2147483648 ≤ earlier ∧ earlier < 2147483648)
    (valid : ∀ earlier ∈ before, IsAssumption variableCount earlier)
    (invalid : ¬IsAssumption variableCount code) :
    readAssumptions variableCount (before ++ code :: after) = .error (.invalidAssumption code) := by
  rcases readAssumptions_eq_ok inRange valid with ⟨literals, read, _⟩
  rw [readAssumptions] at read
  rw [readAssumptions, List.mapM_append, read, List.mapM_cons, assumption?_eq_none invalid]
  rfl

theorem unbroken_consistentLines (units : Std.TreeSet Literal) :
    ∀ line ∈ consistentLines units, Unbroken line := by
  have words : Unbroken (" ".intercalate (units.toList.map Literal.text ++ ["0"])) := by
    apply unbroken_intercalate (by decide)
    intro text member
    rcases List.mem_append.mp member with member | member
    · rcases List.mem_map.mp member with ⟨literal, _, rfl⟩
      exact literal.unbroken_text
    · cases List.mem_singleton.mp member
      decide
  simp only [consistentLines, List.forall_mem_cons]
  exact ⟨by decide, unbroken_append.mpr ⟨by decide, words⟩, by simp⟩

theorem unbroken_inconsistentLines (conflict : Conflict) :
    ∀ line ∈ inconsistentLines conflict, Unbroken line := by
  simp only [inconsistentLines, List.forall_mem_cons]
  exact ⟨by decide, unbroken_append.mpr ⟨by decide, conflict.unbroken_message⟩, by simp⟩

theorem unbroken_stopLines (stop : Stop) : ∀ line ∈ stopLines stop, Unbroken line := by
  cases stop with
  | conflict conflict => exact unbroken_inconsistentLines conflict
  | fault => exact fun _ member => absurd member List.not_mem_nil

section

variable (options : Options) {told : Nat → List String → Prop}

section

variable {propagator : Propagator} {assumptions : List Literal}

theorem tells_answer_of_ok {derived : Std.TreeSet Literal}
    (ended : (propagator.assume assumptions).result = .ok derived)
    (isTold : told 0 (consistentLines (propagator.assume assumptions).propagator.units)) :
    (answer options propagator assumptions).Tells told := by
  rw [answer, ended]
  exact ⟨_, _, _, rfl, isTold, unbroken_consistentLines _, asides_traceEntries _,
    asides_tallyLines options _⟩

theorem tells_answer_of_error {stop : Stop}
    (ended : (propagator.assume assumptions).result = .error stop)
    (isTold : told (stopStatus stop) (stopLines stop)) :
    (answer options propagator assumptions).Tells told := by
  rw [answer, ended]
  exact ⟨_, _, _, rfl, isTold, unbroken_stopLines stop, asides_traceEntries _,
    asides_tallyLines options _⟩

variable {strict : Bool} {problem : Dimacs.Instance}

theorem tells_solve_of_ok
    (made : (Propagator.ofLists strict problem.clauses).result = .ok propagator)
    (tells : (answer options propagator assumptions).Tells told) :
    (solve options strict problem assumptions).Tells told := by
  rw [solve, made]
  exact tells.behind (asides_traceEntries _)

theorem tells_solve_of_error {stop : Stop}
    (ended : (Propagator.ofLists strict problem.clauses).result = .error stop)
    (isTold : told (stopStatus stop) (stopLines stop)) :
    (solve options strict problem assumptions).Tells told := by
  rw [solve, ended]
  exact ⟨_, _, _, rfl, isTold, unbroken_stopLines stop, asides_traceEntries _,
    asides_tallyLines options _⟩

end
end

/-! ## Courses that give the right answer -/

section

variable {clauses : List (List Literal)} {given : Literal → Prop}

/-- There is only one right list of units. -/
theorem AnswerFor.eq_of_consistent {literals : List Literal} {lines : List String}
    (consistent : ¬Contradictory (UnitConsequence clauses given)) (noneEmpty : [] ∉ clauses)
    (listed : ∀ literal, literal ∈ literals ↔ UnitConsequence clauses given literal)
    (ordered : literals.Pairwise fun first second => first.var.index < second.var.index)
    (answer : AnswerFor clauses given lines) :
    lines = ["s CONSISTENT", "v " ++ " ".intercalate (literals.map Literal.text ++ ["0"])] := by
  have nodup : ∀ {list : List Literal},
      (list.Pairwise fun first second => first.var.index < second.var.index) → list.Nodup := by
    intro list ordered
    refine ordered.imp ?_
    rintro first _ before rfl
    exact Nat.lt_irrefl _ before
  cases answer with
  | @consistent others _ _ othersListed othersOrdered =>
      have perm : others.Perm literals :=
        (List.perm_ext_iff_of_nodup (nodup othersOrdered) (nodup ordered)).mpr fun literal =>
          (othersListed literal).trans (listed literal).symm
      have same : others = literals := by
        apply perm.eq_of_pairwise _ othersOrdered ordered
        intro first second _ _ before after
        exact absurd before (Nat.lt_asymm after)
      rw [same]
  | inconsistent refuted =>
      rcases refuted with isEmpty | contradiction
      · exact absurd isEmpty noneEmpty
      · exact absurd contradiction consistent

/-- An answer for the prepared clauses is an answer for the clauses themselves. -/
theorem AnswerFor.of_prepared {lines : List String}
    (answer : AnswerFor (clauses.filterMap reduce?) given lines) : AnswerFor clauses given lines := by
  cases answer with
  | consistent noneEmpty consistent listed ordered =>
      have sound := mt contradictory_prepared_iff.mpr consistent
      refine .consistent (mt nil_mem_prepared_iff.mpr noneEmpty) sound ?_ ordered
      intro literal
      rw [listed literal, unitConsequence_prepared_iff (mt ContradictoryWithin.contradictory sound)]
  | inconsistent refuted =>
      apply AnswerFor.inconsistent
      rwa [nil_mem_prepared_iff, contradictory_prepared_iff] at refuted

/-- Whether a course gives the right answer and nothing else but asides. -/
def Course.Answers (course : Course) (clauses : List (List Literal)) (given : Literal → Prop) :
    Prop :=
  course.Tells fun exit lines => exit = 0 ∧ AnswerFor clauses given lines

theorem Course.Answers.of_prepared {course : Course}
    (answers : course.Answers (clauses.filterMap reduce?) given) : course.Answers clauses given :=
  answers.mono fun _ _ right => ⟨right.1, right.2.of_prepared⟩

/-- The right answer between asides is printed as the right answer between comments. -/
theorem Course.Answers.report {course : Course} (answers : course.Answers clauses given)
    (options : Options) {stamps : Nat → Stamp} (fits : ∀ number, (stamps number).FitsLine) :
    (course.report options stamps).Answers clauses given := by
  rcases answers.printed options fits with
    ⟨before, lines, after, printed, ⟨exit, right⟩, _, commentsBefore, commentsAfter⟩
  exact ⟨exit, before, lines, after, printed, right,
    fun line member => (commentsBefore line member).2,
    fun line member => (commentsAfter line member).2⟩

/-- Assuming literals on a propagator which was just made gives the answer for its formula. -/
theorem answers_answer (options : Options) {propagator : Propagator} {formula : Formula}
    (settled : propagator.Settled formula (formula.Given []))
    (apart : ∀ clause ∈ formula.toList, ¬clause.OpensTwice) (assumptions : List Literal) :
    (answer options propagator assumptions).Answers formula.lists (· ∈ assumptions) := by
  rcases settled.assume assumptions with ⟨⟨derived, ended⟩, after⟩ | ⟨⟨conflict, ended⟩, after⟩
  · apply tells_answer_of_ok options ended
    have units_given := formula.units_given assumptions
    refine ⟨rfl, .consistent formula.nil_notMem_lists ?_ ?_ (Literal.pairwise_toList
      (after.guarded default).units_consistent)⟩
    · exact mt Formula.contradictory_given_iff.mpr (after.not_contradictory units_given apart)
    · intro literal
      rw [Std.TreeSet.mem_toList, after.mem_units_iff units_given apart]
      exact Formula.unitConsequence_given_iff
  · apply tells_answer_of_error options ended
    exact ⟨rfl, .inconsistent (Or.inr (Formula.contradictory_given_iff.mp after.contradictory))⟩

theorem answers_solve (options : Options) (strict : Bool) {problem : Dimacs.Instance}
    (few : problem.clauses.length ≤ ClauseId.limit)
    (distinct : ∀ clause ∈ problem.clauses, (clause.map Literal.var).Nodup)
    (assumptions : List Literal) :
    (solve options strict problem assumptions).Answers problem.clauses (· ∈ assumptions) := by
  rcases Formula.exists_lists_or_emptyClause strict few distinct with
    ⟨_, formula, made, lists⟩ | ⟨hasEmpty, id, failed⟩
  · have result := Propagator.result_ofLists made
    have apart := Formula.not_opensTwice_of_nodup fun list (listed : list ∈ formula.lists) =>
      (distinct list (lists ▸ listed)).of_map
    rcases Propagator.ofFormula_cases formula with
      ⟨propagator, ended, settled⟩ | ⟨conflict, ended, contradiction⟩
    · have answers := answers_answer options settled apart assumptions
      rw [lists] at answers
      exact tells_solve_of_ok options (result.trans ended) answers
    · apply tells_solve_of_error options (result.trans ended)
      rw [Formula.contradictory_given_iff, lists] at contradiction
      refine ⟨rfl, .inconsistent (Or.inr ?_)⟩
      exact UnitConsequence.contradictory_mono (by simp) contradiction
  · have ended : (Propagator.ofLists strict problem.clauses).result =
        .error (.conflict (.emptyClause id)) := by rw [Propagator.ofLists, failed]
    exact tells_solve_of_error options ended ⟨rfl, .inconsistent (Or.inl hasEmpty)⟩

end

end CommandLine
end UnitPropagation
