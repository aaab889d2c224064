import Std.Data.String.ToInt
import UnitPropagation.Proofs.CommandLine.Run
import UnitPropagation.Proofs.Dimacs.Preparation
import UnitPropagation.Proofs.Propagation.Reasons

namespace UnitPropagation

/-!
# Reasons point at clauses

The printed reason of an inconsistency names a clause by its number.  Clauses are numbered
when they are stored, and what is stored is the prepared instance, from which tautologies are
left out.  So the number counts those clauses of the file which are no tautologies, and among
these it points at the right one: the clause is empty, or it has the reported literal and all
of its literals are false.

A file which begins with a tautology shows that the tautologies must not be counted.
-/

theorem takeWhile_repr (number : Nat) (rest : List Char) :
    (number.repr.toList ++ ' ' :: rest).takeWhile Char.isDigit = number.repr.toList := by
  rw [List.takeWhile_append_of_pos isDigit_of_mem_repr, List.takeWhile_cons_of_neg (by decide),
    List.append_nil]

/-- A number can be read off a text in which a blank stands behind it. -/
theorem repr_append_blank_inj {first second : Nat} {rest more : List Char}
    (same : first.repr.toList ++ ' ' :: rest = second.repr.toList ++ ' ' :: more) :
    first = second ∧ rest = more := by
  have digits := congrArg (List.takeWhile Char.isDigit) same
  rw [takeWhile_repr, takeWhile_repr, String.toList_inj, Nat.repr_inj] at digits
  subst digits
  exact ⟨rfl, (List.cons_inj_right ' ').mp (List.append_cancel_left same)⟩

namespace Conflict

variable {conflict : Conflict} {id : ClauseId} {code : Int}

theorem toList_message_emptyClause (id : ClauseId) : (emptyClause id).message.toList =
    "clause ".toList ++ (id.repr.toList ++ ' ' :: "is empty".toList) := by
  simp [message, toString]

theorem toList_message_falsifiedClause (id : ClauseId) (literal : Literal) :
    (falsifiedClause id literal).message.toList = "clause ".toList ++ (id.repr.toList ++ ' ' ::
      ("can no longer be satisfied, its last remaining literal ".toList ++
        (literal.code.repr.toList ++ " is false".toList))) := by
  simp [message, Literal.text, toString]

/-- Only conflicts about a clause begin their wording like this. -/
theorem about_clause {rest : List Char}
    (begins : conflict.message.toList = "clause ".toList ++ rest) :
    (∃ id, conflict = emptyClause id) ∨ ∃ id literal, conflict = falsifiedClause id literal := by
  cases conflict with
  | emptyClause id => exact Or.inl ⟨id, rfl⟩
  | falsifiedClause id literal => exact Or.inr ⟨id, literal, rfl⟩
  | complementaryUnit | inconsistentState => simp [message, toString] at begins

theorem message_eq_empty_iff : conflict.message = s!"clause {id} is empty" ↔
    conflict = emptyClause id := by
  refine ⟨?_, fun same => same ▸ rfl⟩
  intro same
  have texts : conflict.message.toList = (emptyClause id).message.toList := congrArg _ same
  rw [toList_message_emptyClause] at texts
  rcases about_clause texts with ⟨other, rfl⟩ | ⟨other, literal, rfl⟩
  · rw [toList_message_emptyClause] at texts
    rw [(repr_append_blank_inj (List.append_cancel_left texts)).1]
  · rw [toList_message_falsifiedClause] at texts
    have ends := (repr_append_blank_inj (List.append_cancel_left texts)).2
    simp at ends

theorem message_eq_falsified_iff : conflict.message =
    s!"clause {id} can no longer be satisfied, its last remaining literal {code} is false" ↔
      ∃ literal : Literal, literal.code = code ∧ conflict = falsifiedClause id literal := by
  constructor
  · intro same
    have texts : conflict.message.toList = "clause ".toList ++ (id.repr.toList ++ ' ' ::
        ("can no longer be satisfied, its last remaining literal ".toList ++
          (code.repr.toList ++ " is false".toList))) := by
      simp [same, toString]
    rcases about_clause texts with ⟨other, rfl⟩ | ⟨other, literal, rfl⟩
    · rw [toList_message_emptyClause] at texts
      have ends := (repr_append_blank_inj (List.append_cancel_left texts)).2
      simp at ends
    · rw [toList_message_falsifiedClause] at texts
      rcases repr_append_blank_inj (List.append_cancel_left texts) with ⟨rfl, ends⟩
      have numbers := List.append_cancel_right (List.append_cancel_left ends)
      exact ⟨literal, Int.repr_inj.mp (String.toList_inj.mp numbers), rfl⟩
  · rintro ⟨literal, rfl, rfl⟩
    rfl

/-! ## Conflicts about clauses of the file -/

/-- Whether what a conflict says holds of the numbered clauses and of the literals which follow. -/
def Justified (numbered : List (List Literal)) (follows : Literal → Prop) : Conflict → Prop
  | emptyClause id => numbered[id]? = some []
  | complementaryUnit literal => follows literal ∧ follows (-literal)
  | falsifiedClause id literal => ∃ clause, numbered[id]? = some clause ∧ literal ∈ clause ∧
    ∀ other ∈ clause, follows (-other)
  | inconsistentState => False

variable {numbered : List (List Literal)} {follows more : Literal → Prop}

theorem Justified.mono (le : ∀ literal, follows literal → more literal)
    (justified : conflict.Justified numbered follows) : conflict.Justified numbered more := by
  cases conflict with
  | emptyClause => exact justified
  | complementaryUnit => exact ⟨le _ justified.1, le _ justified.2⟩
  | falsifiedClause =>
      rcases justified with ⟨clause, found, member, allFalse⟩
      exact ⟨clause, found, member, fun other inside => le _ (allFalse other inside)⟩
  | inconsistentState => exact justified

end Conflict

namespace Formula

variable {strict : Bool} {clauses : List (List Literal)}

/-- A conflict among lists that make no formula is an empty list, reported with its position. -/
theorem justified_of_ofLists {conflict : Conflict} (follows : Literal → Prop)
    (failed : ofLists strict clauses = .error (.conflict conflict)) :
    conflict.Justified clauses follows := by
  rcases exists_push_of_ofLists_eq_error failed with
    ⟨front, literals, behind, formula, rfl, made, pushed⟩
  rcases push_eq_conflict pushed with ⟨rfl, rfl, _⟩
  rw [size_of_ofLists made]
  simp [Conflict.Justified]

theorem getElem?_lists {formula : Formula} {id : ClauseId} {clause : Clause}
    (read : formula.clause id = .ok clause) : formula.lists[id]? = some clause.literals := by
  rw [lists, List.getElem?_map, Watches.clause_eq_ok_iff.mp read]
  rfl

end Formula

namespace Propagator

variable {propagator : Propagator} {formula : Formula} {given : Literal → Prop}
  {conflict : Conflict}

/-- A conflict that is met by a derivation is justified by what was given before and then. -/
theorem Settled.derive_justified (settled : propagator.Settled formula given)
    {literals : List Literal}
    (failed : (propagator.derive literals).result = .error (.conflict conflict)) :
    conflict.Justified formula.lists
      (UnitConsequence formula.lists fun literal => given literal ∨ literal ∈ literals) := by
  have explained := settled.derive_explained literals
  by_cases opposed : ∃ literal, FirstOpposed (· ∈ propagator.units) literals literal
  · rcases opposed with ⟨literal, isFirst⟩
    cases failed.symm.trans ((explained.refused_iff literal).mpr isFirst)
    rcases isFirst with ⟨before, after, rfl, isOpposed, _⟩
    refine ⟨.given (Or.inr (List.mem_append_right _ List.mem_cons_self)), ?_⟩
    rcases isOpposed with isUnit | assumed
    · exact (settled.units_follow _ isUnit).mono fun _ => Or.inl
    · exact .given (Or.inr (List.mem_append_left _ assumed))
  · rcases explained.falsified (not_exists.mp opposed) _ failed with
      ⟨id, clause, literal, same, read, member, allFalse, _⟩
    cases same
    rw [settled.formula_eq] at read
    rcases settled.derive literals with ⟨⟨derived, ended⟩, _⟩ | ⟨_, broken⟩
    · cases failed.symm.trans ended
    · exact ⟨clause.literals, Formula.getElem?_lists read, member,
        fun other inside => broken.units_follow _ (allFalse other inside)⟩

/-- A conflict that is met when a propagator is made is justified by the clauses alone. -/
theorem justified_of_ofLists {strict : Bool} {clauses : List (List Literal)}
    (failed : (ofLists strict clauses).result = .error (.conflict conflict)) :
    conflict.Justified clauses (UnitConsequence clauses given) := by
  cases made : Formula.ofLists strict clauses with
  | error stop =>
      rw [ofLists, made] at failed
      cases stop with
      | conflict other =>
          cases failed
          exact Formula.justified_of_ofLists _ made
      | fault fault => cases failed
  | ok formula =>
      rw [result_ofLists made, result_ofFormula] at failed
      cases ended : ((fresh formula).derive formula.unitLiterals).result with
      | ok derived =>
          rw [ended] at failed
          cases failed
      | error stop =>
          rw [ended] at failed
          cases failed
          have justified := (settled_fresh formula).derive_justified ended
          rw [given_nil] at justified
          have lists : formula.lists = clauses := Formula.literals_of_ofLists made
          rw [lists] at justified
          refine justified.mono ?_
          intro literal follows
          rw [← lists, Formula.unitConsequence_given_iff, lists] at follows
          exact follows.mono (by simp)

/-- A conflict that is met when literals are assumed is justified by them. -/
theorem Settled.assume_justified (settled : propagator.Settled formula (formula.Given []))
    {assumptions : List Literal}
    (failed : (propagator.assume assumptions).result = .error (.conflict conflict)) :
    conflict.Justified formula.lists (UnitConsequence formula.lists (· ∈ assumptions)) := by
  rw [(settled.assume_eq_derive assumptions).2] at failed
  have justified := settled.derive_justified failed
  rw [given_append] at justified
  exact justified.mono fun literal => Formula.unitConsequence_given_iff.mp

end Propagator

namespace CommandLine

open Dimacs

/-- What is said about prepared clauses holds of the clauses that they were prepared from. -/
theorem justified_of_prepared {clauses : List (List Literal)} {conflict : Conflict}
    {follows : Literal → Prop} (justified : conflict.Justified (clauses.filterMap reduce?) follows) :
    conflict.Justified (clauses.filter fun clause => ¬Tautological clause) follows := by
  rw [prepared_eq] at justified
  cases conflict with
  | emptyClause id =>
      rw [Conflict.Justified, List.getElem?_map, Option.map_eq_some_iff] at justified
      rcases justified with ⟨clause, found, isEmpty⟩
      have none : clause = [] := by
        apply List.eq_nil_iff_forall_not_mem.mpr
        intro literal member
        rw [← List.mem_eraseDups, isEmpty] at member
        cases member
      rwa [none] at found
  | complementaryUnit literal => exact justified
  | falsifiedClause id literal =>
      rcases justified with ⟨stored, found, member, allFalse⟩
      rw [List.getElem?_map, Option.map_eq_some_iff] at found
      rcases found with ⟨clause, found, rfl⟩
      exact ⟨clause, found, List.mem_eraseDups.mp member,
        fun other inside => allFalse other (List.mem_eraseDups.mpr inside)⟩
  | inconsistentState => exact justified

/-! ## What the printed reasons blame -/

/-- Whether any reason which the lines give for an inconsistency is the wording of a conflict of
the given kind. -/
def Blames (blamed : Conflict → Prop) (lines : List String) : Prop :=
  ∀ before reason after, lines = before ++ ["s INCONSISTENT", "c " ++ reason] ++ after →
    ∃ conflict, blamed conflict ∧ conflict.message = reason

/-- Whether a course gives only such reasons, whatever comments stand behind them. -/
def Course.Blames (course : Course) (blamed : Conflict → Prop) : Prop :=
  course.Tells fun _ lines => ∀ more, Comments more → CommandLine.Blames blamed (lines ++ more)

section

variable {blamed : Conflict → Prop} {lines more : List String}

theorem Blames.mono {others : Conflict → Prop} (blames : Blames blamed lines)
    (le : ∀ conflict, blamed conflict → others conflict) : Blames others lines := by
  intro before reason after printed
  rcases blames before reason after printed with ⟨conflict, isBlamed, message⟩
  exact ⟨conflict, le conflict isBlamed, message⟩

theorem Comments.notMem (comments : Comments lines) : "s INCONSISTENT" ∉ lines := by
  intro member
  rcases (comments _ member).2 with ⟨text, same⟩
  have texts := congrArg String.toList same
  simp at texts

theorem blames_of_notMem (silent : "s INCONSISTENT" ∉ lines) : Blames blamed lines := by
  rintro before reason after rfl
  simp at silent

theorem Blames.behind (blames : Blames blamed lines) (comments : Comments more) :
    Blames blamed (more ++ lines) := by
  intro before reason after printed
  rw [List.append_assoc] at printed
  rcases List.append_eq_append_iff.mp printed with ⟨front, rfl, same⟩ | ⟨front, rfl, same⟩
  · exact blames front reason after (by rw [same, List.append_assoc])
  · cases front with
    | nil => exact blames [] reason after same.symm
    | cons line front =>
        cases (List.cons.inj same).1
        exact absurd (List.mem_append_right before List.mem_cons_self) comments.notMem

theorem blames_inconsistentLines {conflict : Conflict} (isBlamed : blamed conflict)
    (comments : Comments more) : Blames blamed (inconsistentLines conflict ++ more) := by
  intro before reason after printed
  cases before with
  | nil =>
      rw [inconsistentLines] at printed
      simp only [List.nil_append, List.cons_append, List.cons.injEq, true_and] at printed
      refine ⟨conflict, isBlamed, String.toList_inj.mp ?_⟩
      simpa using congrArg String.toList printed.1
  | cons line before =>
      -- The line about the inconsistency would have to be a comment.
      have behind : Comments (("c " ++ conflict.message) :: more) := by
        refine List.forall_mem_cons.mpr ⟨⟨?_, conflict.message, rfl⟩, comments⟩
        exact unbroken_append.mpr ⟨by decide, conflict.unbroken_message⟩
      have rest : ("c " ++ conflict.message) :: more =
          before ++ ["s INCONSISTENT", "c " ++ reason] ++ after := (List.cons.inj printed).2
      rw [rest] at behind
      exact absurd (by simp) behind.notMem

theorem blames_stopLines {stop : Stop}
    (isBlamed : ∀ conflict, stop = .conflict conflict → blamed conflict)
    (comments : Comments more) : Blames blamed (stopLines stop ++ more) := by
  cases stop with
  | conflict conflict => exact blames_inconsistentLines (isBlamed conflict rfl) comments
  | fault => exact blames_of_notMem comments.notMem

theorem blames_consistentLines (units : Std.TreeSet Literal) (comments : Comments more) :
    Blames blamed (consistentLines units ++ more) := by
  apply blames_of_notMem
  rw [List.mem_append, not_or]
  refine ⟨?_, comments.notMem⟩
  intro member
  simp only [consistentLines, List.mem_cons, List.not_mem_nil, or_false] at member
  rcases member with isStatus | isUnits
  · exact absurd isStatus (by decide)
  · have texts := congrArg String.toList isUnits
    simp at texts

theorem Course.Blames.mono {course : Course} {others : Conflict → Prop}
    (blames : course.Blames blamed) (le : ∀ conflict, blamed conflict → others conflict) :
    course.Blames others :=
  Course.Tells.mono blames fun _ _ reasons more comments => (reasons more comments).mono le

/-- What a course blames is all that its report blames. -/
theorem Course.Blames.printedLines {course : Course} (blames : course.Blames blamed)
    (options : Options) {stamps : Nat → Stamp} (fits : ∀ number, (stamps number).FitsLine) :
    CommandLine.Blames blamed (course.report options stamps).printedLines := by
  rcases Course.Tells.printed blames options fits with
    ⟨before, lines, after, printed, reasons, _, commentsBefore, commentsAfter⟩
  rw [printed, List.append_assoc]
  exact (reasons after commentsAfter).behind commentsBefore

end

section

variable (options : Options)

theorem blames_answer {propagator : Propagator} {formula : Formula}
    (settled : propagator.Settled formula (formula.Given [])) (assumptions : List Literal) :
    (answer options propagator assumptions).Blames
      (Conflict.Justified formula.lists (UnitConsequence formula.lists (· ∈ assumptions))) := by
  cases ended : (propagator.assume assumptions).result with
  | ok derived =>
      exact tells_answer_of_ok options ended fun _ comments => blames_consistentLines _ comments
  | error stop =>
      have justified : ∀ conflict, stop = .conflict conflict →
          conflict.Justified formula.lists (UnitConsequence formula.lists (· ∈ assumptions)) := by
        rintro conflict rfl
        exact settled.assume_justified ended
      exact tells_answer_of_error options ended fun _ comments =>
        blames_stopLines justified comments

theorem blames_solve (strict : Bool) (problem : Dimacs.Instance) (assumptions : List Literal) :
    (solve options strict problem assumptions).Blames
      (Conflict.Justified problem.clauses
        (UnitConsequence problem.clauses (· ∈ assumptions))) := by
  cases ended : (Propagator.ofLists strict problem.clauses).result with
  | ok propagator =>
      rcases Propagator.exists_formula_of_made ended with ⟨formula, made, ofFormula⟩
      have blames := blames_answer options (Propagator.settled_of_ofFormula ofFormula) assumptions
      have lists : formula.lists = problem.clauses := Formula.literals_of_ofLists made
      rw [lists] at blames
      exact tells_solve_of_ok options ended blames
  | error stop =>
      have justified : ∀ conflict, stop = .conflict conflict →
          conflict.Justified problem.clauses
            (UnitConsequence problem.clauses (· ∈ assumptions)) := by
        rintro conflict rfl
        exact Propagator.justified_of_ofLists ended
      exact tells_solve_of_error options ended fun _ comments =>
        blames_stopLines justified comments

theorem blames_process (strict : Bool) {source : Dimacs.Source} {content : Content}
    {assumptions : List Literal} (accepted : source.result = .ok content)
    (valid : readAssumptions content.variableCount options.assumptions = .ok assumptions) :
    (process options strict source).Blames
      (Conflict.Justified (content.clauses.filter fun clause => ¬Tautological clause)
        (UnitConsequence content.clauses (· ∈ assumptions))) := by
  have solved := blames_solve options strict (Instance.ofContent content) assumptions
  apply tells_process options strict accepted valid
  exact solved.mono fun conflict justified =>
    (justified_of_prepared justified).mono fun _ => unitConsequence_of_prepared

end

/-- Whether a report gives a clause as the reason of an inconsistency only if it is empty, or if
it has the reported literal and all of its literals are false.  A clause is reported by its
number, counted from zero, and a literal is false if its negation follows. -/
structure Report.PointsAt (report : Report) (numbered : List (List Literal))
    (follows : Literal → Prop) : Prop where
  isEmpty : ∀ before after (id : Nat), report.printedLines =
    before ++ ["s INCONSISTENT", "c " ++ s!"clause {id} is empty"] ++ after →
      numbered[id]? = some []
  allFalse : ∀ before after (id : Nat) (code : Int), report.printedLines =
    before ++ ["s INCONSISTENT", "c " ++
      s!"clause {id} can no longer be satisfied, its last remaining literal {code} is false"] ++
        after →
      ∃ clause, numbered[id]? = some clause ∧ (∃ literal ∈ clause, literal.code = code) ∧
        ∀ other ∈ clause, follows (-other)

theorem Blames.pointsAt {numbered : List (List Literal)} {follows : Literal → Prop} {report : Report}
    (blames : Blames (Conflict.Justified numbered follows) report.printedLines) :
    report.PointsAt numbered follows := by
  constructor
  case isEmpty =>
    intro before after id told
    rcases blames _ _ _ told with ⟨conflict, justified, message⟩
    cases Conflict.message_eq_empty_iff.mp message
    exact justified
  case allFalse =>
    intro before after id code told
    rcases blames _ _ _ told with ⟨conflict, justified, message⟩
    rcases Conflict.message_eq_falsified_iff.mp message with ⟨literal, isCode, rfl⟩
    rcases justified with ⟨clause, found, member, allFalse⟩
    exact ⟨clause, found, ⟨literal, member, isCode⟩, allFalse⟩

/-- If a run on an accepted file with valid assumptions reports a clause as the reason of an
inconsistency, it points at the right clause of the file, counted without the tautologies:
an empty one, or one with the reported literal whose literals are all false by unit propagation
from the assumptions with all clauses of the file. -/
theorem reasons_point_at_clauses (options : Options) {stamps : Nat → Stamp} (strict : Bool)
    (source : Dimacs.Source) {content : Content}
    (supported : extension? options.path = some "cnf")
    (fits : ∀ number, (stamps number).FitsLine)
    (inRange : ∀ code ∈ options.assumptions, -2147483648 ≤ code ∧ code < 2147483648)
    (accepted : source.result = .ok content)
    (valid : ∀ code ∈ options.assumptions, IsAssumption content.variableCount code) :
    (run options stamps strict (.ok source)).PointsAt
      (content.clauses.filter fun clause => ¬Tautological clause)
      (UnitConsequence content.clauses fun literal => literal.code ∈ options.assumptions) := by
  rcases readAssumptions_eq_ok inRange valid with ⟨assumptions, read, codes⟩
  have solved := blames_process options strict accepted read
  have blames := solved.behind (asides_openingEntries strict)
  rw [mem_iff_code_mem codes] at blames
  rw [run, course_of_ok options strict supported]
  exact (Course.Blames.printedLines blames options fits).pointsAt

/-- Behind a tautology, the second of two clauses has the number one, and its last literal is
false by an assumption. -/
theorem falsified_behind_tautology :
    let options : Options := { path := "a.cnf", assumptions := [-1], flags := [] }
    let stamps : Nat → Stamp := fun number => { time := number.repr, site := "here" }
    let source := Source.ofBytes ("p cnf 2 3\n1 -1 0\n1 2 0\n1 -2 0\n".toList.map Char.toUInt8)
    let first : Literal := ⟨1, by decide, by decide⟩
    let second : Literal := ⟨2, by decide, by decide⟩
    let clauses := [[first, -first], [first, second], [first, -second]]
    (extension? options.path = some "cnf" ∧ (∀ number, (stamps number).FitsLine) ∧
      (∀ code ∈ options.assumptions, -2147483648 ≤ code ∧ code < 2147483648) ∧
      source.result = .ok ⟨2, clauses⟩ ∧ ∀ code ∈ options.assumptions, IsAssumption 2 code) ∧
    (run options stamps false (.ok source)).printedLines = ["s INCONSISTENT", "c " ++
      "clause 1 can no longer be satisfied, its last remaining literal -2 is false"] ∧
    (clauses.filter fun clause => ¬Tautological clause)[1]? = some [first, -second] ∧
      ∀ other ∈ [first, -second],
        UnitConsequence clauses (fun literal => literal.code ∈ options.assumptions) (-other) := by
  intro options stamps source first second clauses
  have supported : extension? options.path = some "cnf" := by decide
  have fits : ∀ number, (stamps number).FitsLine := fun number =>
    ⟨unbroken_nat number, (by decide : Unbroken "here")⟩
  have inRange : ∀ code ∈ options.assumptions, -2147483648 ≤ code ∧ code < 2147483648 := by decide
  have accepted : source.result = .ok ⟨2, clauses⟩ := by decide +kernel
  have valid : ∀ code ∈ options.assumptions, IsAssumption 2 code := by decide
  have printed : (run options stamps false (.ok source)).printedLines = ["s INCONSISTENT", "c " ++
      "clause 1 can no longer be satisfied, its last remaining literal -2 is false"] := by
    decide +kernel
  have third : (clauses.filter fun clause => ¬Tautological clause)[1]? = some [first, -second] := by
    decide
  have points := reasons_point_at_clauses options false source supported fits inRange accepted valid
  rcases points.allFalse [] [] 1 (-2) (printed.trans (by decide)) with ⟨clause, found, _, allFalse⟩
  cases third.symm.trans found
  exact ⟨⟨supported, fits, inRange, accepted, valid⟩, printed, third, allFalse⟩

/-- With the tautologies, the clauses cannot be counted.  A run reports the empty clause behind a
tautology as the clause with the number zero, which is the number of the tautology in the file. -/
theorem empty_clause_is_counted_without_tautology :
    let options : Options := { path := "a.cnf", assumptions := [], flags := [] }
    let stamps : Nat → Stamp := fun number => { time := number.repr, site := "here" }
    let source := Source.ofBytes ("p cnf 1 2\n1 -1 0\n0\n".toList.map Char.toUInt8)
    let literal : Literal := ⟨1, by decide, by decide⟩
    let clauses := [[literal, -literal], []]
    source.result = .ok ⟨1, clauses⟩ ∧ (run options stamps false (.ok source)).exit = 0 ∧
    (run options stamps false (.ok source)).printedLines =
      ["s INCONSISTENT", "c " ++ "clause 0 is empty"] ∧
    ¬(run options stamps false (.ok source)).PointsAt clauses
      (UnitConsequence clauses fun literal => literal.code ∈ options.assumptions) := by
  intro options stamps source literal clauses
  have accepted : source.result = .ok ⟨1, clauses⟩ := by decide +kernel
  have answers : (run options stamps false (.ok source)).exit = 0 := by decide +kernel
  have printed : (run options stamps false (.ok source)).printedLines =
      ["s INCONSISTENT", "c " ++ "clause 0 is empty"] := by
    decide +kernel
  refine ⟨accepted, answers, printed, ?_⟩
  intro points
  have isEmpty : clauses[0]? = some [] := points.isEmpty [] [] 0 printed
  cases isEmpty

end CommandLine
end UnitPropagation
