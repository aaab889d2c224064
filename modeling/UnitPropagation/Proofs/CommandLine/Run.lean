import UnitPropagation.Proofs.CommandLine.Solve
import UnitPropagation.Proofs.Dimacs.Rejections

namespace UnitPropagation
namespace CommandLine

open Dimacs

/-!
# Runs answer or fail

A run on a file ends in one of two ways.  If the file is accepted and all numbers to be
assumed are codes of literals over its variables, the run answers.  Otherwise it fails,
and a rejected file is reported before the numbers are looked at.
-/

/-- Whether the wording of a failure fits into a line, or breaks it for a line feed which
was not expected. -/
def Failure.IsTidy (failure : Failure) : Prop :=
  Unbroken failure.text ∨ failure = .invalid (.rejected (.unexpectedCharacter '\n'))

theorem isTidy_invalid {rejection : Rejection} (tidy : rejection.IsTidy) :
    (Failure.invalid (.rejected rejection)).IsTidy := by
  rcases tidy with rfl | quotes
  · exact Or.inr rfl
  · left
    have message := Rejection.unbroken_message quotes
    exact unbroken_append.mpr ⟨by decide, unbroken_append.mpr ⟨by decide, message⟩⟩

theorem isTidy_invalidAssumption (code : Int) : (Failure.invalidAssumption code).IsTidy := by
  left
  have number : Unbroken (toString code) := by simp [toString]
  exact unbroken_append.mpr ⟨by decide, unbroken_append.mpr
    ⟨unbroken_append.mpr ⟨by decide, number⟩, by decide⟩⟩

/-- A line feed that was not expected breaks the line of its failure in front of the last
quotation mark. -/
theorem linesOf_unexpectedBreak (options : Options) {stamp : Stamp} (fits : stamp.FitsLine) :
    ∃ beginning, Unbroken beginning ∧
      linesOf (recordLine options stamp { level := .error, message :=
          (Failure.invalid (.rejected (.unexpectedCharacter '\n'))).text }) =
        [recordLine options stamp { level := .error, message := beginning }, "'"] := by
  obtain ⟨beginning, broken, unbroken⟩ : ∃ beginning,
      (Failure.invalid (.rejected (.unexpectedCharacter '\n'))).text = beginning ++ "\n" ++ "'" ∧
        Unbroken beginning :=
    ⟨"Execution failed, error: The dimacs file was invalid, more details: unexpected character '",
      by decide +kernel, by decide +kernel⟩
  have unbroken_line : Unbroken (recordLine options stamp ⟨.error, beginning⟩) :=
    unbroken_recordLine options fits unbroken
  refine ⟨beginning, unbroken, ?_⟩
  rw [broken, recordLine_append, recordLine_append, linesOf_append_break,
    linesOf_of_unbroken unbroken_line, linesOf_of_unbroken (by decide)]
  rfl

/-- Neither the line of a failure nor what a line feed in it leaves over speaks up. -/
theorem silent_failure (options : Options) {stamp : Stamp} (fits : stamp.FitsLine)
    {failure : Failure} (tidy : failure.IsTidy) :
    ∀ line ∈ linesOf (recordLine options stamp { level := .error, message := failure.text }),
      ¬SpeaksUp line := by
  rcases tidy with unbroken | rfl
  · have unbroken_line : Unbroken (recordLine options stamp ⟨.error, failure.text⟩) :=
      unbroken_recordLine options fits unbroken
    rw [linesOf_of_unbroken unbroken_line]
    intro line member
    cases List.mem_singleton.mp member
    exact (isComment_recordLine options stamp _).not_speaksUp
  · rcases linesOf_unexpectedBreak options fits with ⟨beginning, _, printed⟩
    rw [printed]
    intro line member
    simp only [List.mem_cons, List.not_mem_nil, or_false] at member
    rcases member with rfl | rfl
    · exact (isComment_recordLine options stamp _).not_speaksUp
    · unfold SpeaksUp
      decide

/-- Whether a course ends with the failure and tells nothing else but asides. -/
structure Course.FailsWith (course : Course) (failure : Failure) : Prop where
  exit_eq : course.exit = 1
  ends : ∃ before, Asides before ∧
    course.entries = before ++ [.record { level := .error, message := failure.text }]

namespace Course.FailsWith

variable {course : Course} {failure : Failure}

theorem behind (fails : course.FailsWith failure) {entries : List Entry}
    (asides : Asides entries) : (course.behind entries).FailsWith failure where
  exit_eq := fails.exit_eq
  ends := by
    rcases fails.ends with ⟨before, asidesBefore, cut⟩
    refine ⟨entries ++ before, asides.append asidesBefore, ?_⟩
    rw [Course.behind, cut, List.append_assoc]

/-- The failure stands behind comments, stamped like any other entry. -/
theorem printed (fails : course.FailsWith failure) (options : Options) {stamps : Nat → Stamp}
    (fits : ∀ number, (stamps number).FitsLine) :
    ∃ before number, Comments before ∧ (course.report options stamps).printedLines = before ++
      linesOf (recordLine options (stamps number) { level := .error, message := failure.text }) := by
  rcases fails.ends with ⟨before, asides, cut⟩
  have comments := comments_layOut options 0 fits asides
  refine ⟨_, 0 + before.length, comments, ?_⟩
  rw [printedLines_eq, Course.report, cut, layOut_append, layOut_error, List.flatMap_append,
    List.flatMap_singleton, flatMap_linesOf fun line member => (comments line member).1]

/-- A run that fails after asides says why, and nothing else. -/
theorem report (fails : course.FailsWith failure) (tidy : failure.IsTidy) (options : Options)
    {stamps : Nat → Stamp} (fits : ∀ number, (stamps number).FitsLine) :
    (course.report options stamps).FailsWith options stamps failure := by
  rcases fails.printed options fits with ⟨before, number, comments, printed⟩
  constructor
  case exit_eq => exact fails.exit_eq
  case ends => exact ⟨before, number, printed⟩
  case silent =>
    rw [printed]
    intro line member
    rcases List.mem_append.mp member with member | member
    · exact (comments line member).2.not_speaksUp
    · exact silent_failure options (fits number) tidy line member

end Course.FailsWith

theorem failsWith_failed (failure : Failure) : (failed failure).FailsWith failure where
  exit_eq := rfl
  ends := ⟨[], fun _ member => absurd member List.not_mem_nil, rfl⟩

/-! ## How the course of a run ends -/

theorem mem_iff_code_mem {assumptions : List Literal} {codes : List Int}
    (same : assumptions.map Literal.code = codes) :
    (· ∈ assumptions) = fun literal : Literal => literal.code ∈ codes := by
  funext literal
  rw [← same, List.mem_map]
  apply propext
  constructor
  · intro member
    exact ⟨literal, member, rfl⟩
  · rintro ⟨other, member, codes⟩
    exact Literal.ext_code codes ▸ member

theorem asides_openingEntries (strict : Bool) : Asides (openingEntries strict) := by
  apply asides_records
  intro record member
  rcases List.mem_cons.mp member with rfl | member
  · decide
  · cases strict with
    | true =>
        cases List.mem_singleton.mp member
        exact unbroken_append.mpr ⟨by decide, by decide⟩
    | false => cases member

theorem asides_sizeRecord (problem : Dimacs.Instance) : Asides [.record (sizeRecord problem)] := by
  intro entry member
  cases List.mem_singleton.mp member
  dsimp only [Entry.IsAside, sizeRecord, toString]
  simp only [unbroken_append, unbroken_nat]
  simp [Unbroken]

section

variable (options : Options) (strict : Bool)

theorem course_of_ok (supported : extension? options.path = some "cnf") (source : Dimacs.Source) :
    course options strict (.ok source) =
      (process options strict source).behind (openingEntries strict) := by
  have isSupported : options.isSupported = true := decide_eq_true supported
  rw [course, isSupported]
  rfl

theorem course_of_error (supported : extension? options.path = some "cnf") (reason : String) :
    course options strict (.error reason) =
      (failed (.unopened reason)).behind (openingEntries strict) := by
  have isSupported : options.isSupported = true := decide_eq_true supported
  rw [course, isSupported]
  rfl

variable {source : Dimacs.Source}

theorem failsWith_of_rejected {failure : Dimacs.Failure} (rejected : source.result = .error failure) :
    (process options strict source).FailsWith (.invalid failure) := by
  rw [process, Source.outcome, rejected]
  exact (failsWith_failed _).behind (asides_skipEntries _)

variable {content : Content} (accepted : source.result = .ok content)

include accepted

theorem failsWith_of_refused {failure : Failure}
    (refused : readAssumptions content.variableCount options.assumptions = .error failure) :
    (process options strict source).FailsWith failure := by
  rw [process, Source.outcome, accepted]
  dsimp only
  rw [refused]
  exact (failsWith_failed _).behind (asides_skipEntries _)

/-- What is told about an accepted file with valid assumptions is what is told about the instance
that is prepared from it. -/
theorem tells_process {told : Nat → List String → Prop} {assumptions : List Literal}
    (valid : readAssumptions content.variableCount options.assumptions = .ok assumptions)
    (tells : (solve options strict (Instance.ofContent content) assumptions).Tells told) :
    (process options strict source).Tells told := by
  rw [process, Source.outcome, accepted]
  dsimp only
  rw [valid]
  exact (tells.behind (asides_sizeRecord _)).behind (asides_skipEntries _)

theorem answers_of_accepted {assumptions : List Literal}
    (few : content.clauses.length ≤ ClauseId.limit)
    (valid : readAssumptions content.variableCount options.assumptions = .ok assumptions) :
    (process options strict source).Answers content.clauses (· ∈ assumptions) := by
  have fewPrepared : (Instance.ofContent content).clauses.length ≤ ClauseId.limit :=
    Nat.le_trans (List.length_filterMap_le _ _) few
  have answers := answers_solve options strict fewPrepared distinct_prepared assumptions
  exact tells_process options strict accepted valid answers.of_prepared

end

/-- A run on a file of the right name answers or fails.  It fails if the file is rejected,
whatever is to be assumed, and else for the first number which is no code of a literal
over the declared variables.  If there is none, the run gives the right answer for the
clauses as they stand in the file, read as sets of literals. -/
theorem run_answers_or_fails (options : Options) {stamps : Nat → Stamp} (strict : Bool)
    (source : Dimacs.Source) (supported : extension? options.path = some "cnf")
    (fits : ∀ number, (stamps number).FitsLine)
    (inRange : ∀ code ∈ options.assumptions, -2147483648 ≤ code ∧ code < 2147483648) :
    (∀ failure, source.result = .error failure →
      (∃ rejection, failure = .rejected rejection) ∧
        (run options stamps strict (.ok source)).FailsWith options stamps (.invalid failure)) ∧
    ∀ content, source.result = .ok content → content.clauses.length ≤ ClauseId.limit →
      ((∀ code ∈ options.assumptions, IsAssumption content.variableCount code) →
        (run options stamps strict (.ok source)).Answers content.clauses
          fun literal => literal.code ∈ options.assumptions) ∧
      ((¬∀ code ∈ options.assumptions, IsAssumption content.variableCount code) →
        ∃ before code after, options.assumptions = before ++ code :: after ∧
          (∀ earlier ∈ before, IsAssumption content.variableCount earlier) ∧
            ¬IsAssumption content.variableCount code ∧
              (run options stamps strict (.ok source)).FailsWith options stamps
                (.invalidAssumption code)) := by
  have opening := asides_openingEntries strict
  rw [run, course_of_ok options strict supported]
  refine ⟨?_, ?_⟩
  · intro failure rejected
    rcases source.exists_rejection rejected with ⟨rejection, rfl, tidy⟩
    have fails := (failsWith_of_rejected options strict rejected).behind opening
    exact ⟨⟨rejection, rfl⟩, fails.report (isTidy_invalid tidy) options fits⟩
  · intro content accepted few
    refine ⟨?_, ?_⟩
    · intro valid
      rcases readAssumptions_eq_ok inRange valid with ⟨assumptions, read, codes⟩
      have answers := (answers_of_accepted options strict accepted few read).behind opening
      rw [mem_iff_code_mem codes] at answers
      exact Course.Answers.report answers options fits
    · intro someInvalid
      rcases exists_first_invalid someInvalid with ⟨before, code, after, cut, valid, invalid⟩
      refine ⟨before, code, after, cut, valid, invalid, ?_⟩
      have refused : readAssumptions content.variableCount options.assumptions =
          .error (.invalidAssumption code) := by
        rw [cut] at inRange ⊢
        exact readAssumptions_eq_error
          (fun earlier member => inRange earlier (List.mem_append_left _ member)) valid invalid
      have fails := (failsWith_of_refused options strict accepted refused).behind opening
      exact fails.report (isTidy_invalidAssumption code) options fits

/-- A clause with a repeated literal acts as a unit clause, together with an assumption, whatever
the time is at which anything is told. -/
theorem repeated_literal_answers_as_unit :
    let options : Options := { path := "a.cnf", assumptions := [3], flags := [] }
    let stamps : Nat → Stamp := fun number => { time := number.repr, site := "here" }
    let source := Source.ofBytes ("p cnf 3 2\n1 1 0\n-1 2 -3 0\n".toList.map Char.toUInt8)
    (extension? options.path = some "cnf" ∧ (∀ number, (stamps number).FitsLine) ∧
      ∀ code ∈ options.assumptions, -2147483648 ≤ code ∧ code < 2147483648) ∧
    (run options stamps false (.ok source)).exit = 0 ∧
      ∃ before after, (run options stamps false (.ok source)).printedLines =
        before ++ ["s CONSISTENT", "v 1 2 3 0"] ++ after := by
  intro options stamps source
  have supported : extension? options.path = some "cnf" := by decide
  have fits : ∀ number, (stamps number).FitsLine := fun number =>
    ⟨unbroken_nat number, (by decide : Unbroken "here")⟩
  have inRange : ∀ code ∈ options.assumptions, -2147483648 ≤ code ∧ code < 2147483648 := by decide
  refine ⟨⟨supported, fits, inRange⟩, ?_⟩
  let first : Literal := ⟨1, by decide, by decide⟩
  let second : Literal := ⟨2, by decide, by decide⟩
  let third : Literal := ⟨3, by decide, by decide⟩
  let units := [first, second, third]
  let clauses := [[first, first], [-first, second, -third]]
  have accepted : source.result = .ok ⟨3, clauses⟩ := by decide +kernel
  have outcome := (run_answers_or_fails options false source supported fits inRange).2 _ accepted
    (by decide)
  have answers := outcome.1 (by decide)
  refine ⟨answers.exit_eq, ?_⟩
  rcases answers.exists_answer with ⟨before, answer, after, printed, right, _⟩
  refine ⟨before, after, ?_⟩
  let follows := UnitConsequence clauses fun literal => literal.code ∈ options.assumptions
  -- The three literals follow one after the other, and they are closed under the clauses.
  have third_follows : follows third := .given (by decide)
  have first_follows : follows first := by
    refine .forced (by decide : [first, first] ∈ clauses) (by decide) ?_
    have alone : ∀ other ∈ [first, first], other = first := by decide
    intro other member different
    exact absurd (alone other member) different
  have second_follows : follows second := by
    refine .forced (by decide : [-first, second, -third] ∈ clauses) (by decide) ?_
    have others : ∀ other ∈ [-first, second, -third], other ≠ second → -other ∈ [first, third] := by
      decide
    intro other member different
    rcases List.mem_cons.mp (others other member different) with same | same
    · exact same ▸ first_follows
    · exact List.mem_singleton.mp same ▸ third_follows
  have closed : ∀ clause ∈ clauses, ∀ literal ∈ clause,
      (∀ other ∈ clause, other ≠ literal → -other ∈ units) → literal ∈ units := by decide
  have listed : ∀ literal, literal ∈ units ↔ follows literal := by
    intro literal
    constructor
    · simp only [units, List.mem_cons, List.not_mem_nil, or_false]
      rintro (rfl | rfl | rfl)
      · exact first_follows
      · exact second_follows
      · exact third_follows
    · intro holds
      induction holds with
      | given isGiven =>
          have isThird := Literal.ext_code (List.mem_singleton.mp isGiven : _ = third.code)
          exact isThird ▸ (by decide : third ∈ units)
      | forced isClause member _ ih => exact closed _ isClause _ member ih
  have consistent : ¬Contradictory follows := by
    rintro ⟨literal, holds, negationHolds⟩
    have apart : ∀ unit ∈ units, -unit ∉ units := by decide
    exact apart literal ((listed literal).mpr holds) ((listed _).mpr negationHolds)
  rw [printed, right.eq_of_consistent consistent (by decide) listed (by decide)]
  rfl

end CommandLine
end UnitPropagation
