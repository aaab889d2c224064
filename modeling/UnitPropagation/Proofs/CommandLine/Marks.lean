import UnitPropagation.Proofs.CommandLine.Run

namespace UnitPropagation
namespace CommandLine

open Dimacs

/-!
# Marked lines

In the output format of solvers a line is marked as a comment, as the status or as a part
of the values.  All lines of a run are marked, except in one case.  If the text of the
instance has a line feed behind the minus sign of a numeral, the failure quotes the line
feed.  What stands behind it in the quotation comes to be a line of its own, without a mark.
-/

/-- Whether a line is marked as a comment, as a status or as values. -/
def IsMarked (line : String) : Prop :=
  ∃ text, line = "c " ++ text ∨ line = "s " ++ text ∨ line = "v " ++ text

theorem IsComment.isMarked {line : String} (comment : IsComment line) : IsMarked line := by
  rcases comment with ⟨text, rfl⟩
  exact ⟨text, Or.inl rfl⟩

theorem not_isMarked_quote : ¬IsMarked "'" := by
  rintro ⟨text, same | same | same⟩ <;>
    simpa using congrArg (fun line : String => line.toList.head?) same

/-- Whether a course tells marked lines between asides, or nothing but asides. -/
def Course.Marked (course : Course) : Prop :=
  course.Tells fun _ lines => ∀ line ∈ lines, IsMarked line

theorem Course.Marked.printedLines {course : Course} (marked : course.Marked) (options : Options)
    {stamps : Nat → Stamp} (fits : ∀ number, (stamps number).FitsLine) :
    ∀ line ∈ (course.report options stamps).printedLines, IsMarked line := by
  rcases marked.printed options fits with
    ⟨before, lines, after, printed, marked, _, commentsBefore, commentsAfter⟩
  rw [printed]
  refine List.forall_mem_append.mpr ⟨List.forall_mem_append.mpr ⟨?_, marked⟩, ?_⟩
  · exact fun line member => (commentsBefore line member).2.isMarked
  · exact fun line member => (commentsAfter line member).2.isMarked

theorem isMarked_of_consistentLines (units : Std.TreeSet Literal) :
    ∀ line ∈ consistentLines units, IsMarked line := by
  simp only [consistentLines, List.mem_cons, List.not_mem_nil, or_false]
  rintro line (rfl | rfl)
  · exact ⟨"CONSISTENT", Or.inr (Or.inl rfl)⟩
  · exact ⟨_, Or.inr (Or.inr rfl)⟩

theorem isMarked_of_stopLines (stop : Stop) : ∀ line ∈ stopLines stop, IsMarked line := by
  cases stop with
  | conflict conflict =>
      simp only [stopLines, inconsistentLines, List.mem_cons, List.not_mem_nil, or_false]
      rintro line (rfl | rfl)
      · exact ⟨"INCONSISTENT", Or.inr (Or.inl rfl)⟩
      · exact ⟨_, Or.inl rfl⟩
  | fault fault => exact fun _ member => absurd member List.not_mem_nil

/-- Only a number that is no code of a literal is refused. -/
theorem exists_code_of_readAssumptions {variableCount : Nat} {codes : List Int} {failure : Failure}
    (failed : readAssumptions variableCount codes = .error failure) :
    ∃ code, failure = .invalidAssumption code := by
  induction codes with
  | nil => cases failed
  | cons code codes ih =>
      rw [readAssumptions, List.mapM_cons] at failed
      cases read : assumption? variableCount code with
      | none =>
          rw [read] at failed
          cases failed
          exact ⟨code, rfl⟩
      | some literal =>
          rw [read] at failed
          cases others : readAssumptions variableCount codes with
          | error other =>
              rw [readAssumptions] at others
              rw [others] at failed
              cases failed
              exact ih others
          | ok literals =>
              rw [readAssumptions] at others
              rw [others] at failed
              cases failed

section

variable (options : Options)

theorem marked_answer (propagator : Propagator) (assumptions : List Literal) :
    (answer options propagator assumptions).Marked := by
  cases ended : (propagator.assume assumptions).result with
  | ok derived => exact tells_answer_of_ok options ended (isMarked_of_consistentLines _)
  | error stop => exact tells_answer_of_error options ended (isMarked_of_stopLines stop)

theorem marked_solve (strict : Bool) (problem : Instance) (assumptions : List Literal) :
    (solve options strict problem assumptions).Marked := by
  cases ended : (Propagator.ofLists strict problem.clauses).result with
  | ok propagator =>
      exact tells_solve_of_ok options ended (marked_answer options propagator assumptions)
  | error stop => exact tells_solve_of_error options ended (isMarked_of_stopLines stop)

/-- A failure whose wording fits into a line is an aside like those before it. -/
theorem Course.FailsWith.marked {course : Course} {failure : Failure}
    (fails : course.FailsWith failure) (unbroken : Unbroken failure.text) : course.Marked := by
  rcases fails.ends with ⟨before, asides, cut⟩
  refine ⟨course.entries, [], [], by simp, nofun, nofun, ?_, nofun⟩
  rw [cut]
  refine asides.append ?_
  intro entry member
  cases List.mem_singleton.mp member
  exact unbroken

/-- A source that breaks no numeral makes marked lines only. -/
theorem marked_process (strict : Bool) {source : Source} (whole : ¬source.BreaksNumeral) :
    (process options strict source).Marked := by
  cases ended : source.result with
  | error failure =>
      have fails := failsWith_of_rejected options strict ended
      rcases source.exists_rejection ended with ⟨rejection, rfl, tidy⟩
      rcases isTidy_invalid tidy with unbroken | isBreak
      · exact fails.marked unbroken
      · cases isBreak
        exact absurd (Source.result_eq_break_iff.mp ended) whole
  | ok content =>
      cases read : readAssumptions content.variableCount options.assumptions with
      | error failure =>
          have fails := failsWith_of_refused options strict ended read
          rcases exists_code_of_readAssumptions read with ⟨code, rfl⟩
          rcases isTidy_invalidAssumption code with unbroken | isBreak
          · exact fails.marked unbroken
          · cases isBreak
      | ok assumptions =>
          exact tells_process options strict ended read (marked_solve options strict _ assumptions)

/-- A failure that quotes a line feed makes comments, and one line that is left over. -/
theorem Course.FailsWith.printed_break {course : Course}
    (fails : course.FailsWith (.invalid (.rejected (.unexpectedCharacter '\n'))))
    {stamps : Nat → Stamp} (fits : ∀ number, (stamps number).FitsLine) :
    ∃ before, (course.report options stamps).printedLines = before ++ ["'"] ∧
      ∀ line ∈ before, IsMarked line := by
  rcases fails.printed options fits with ⟨before, number, comments, printed⟩
  rcases linesOf_unexpectedBreak options (fits number) with ⟨beginning, _, broken⟩
  let opening := recordLine options (stamps number) { level := .error, message := beginning }
  refine ⟨before ++ [opening], ?_, ?_⟩
  · rw [printed, broken, List.append_assoc]
    rfl
  · intro line member
    rcases List.mem_append.mp member with member | member
    · exact (comments line member).2.isMarked
    · cases List.mem_singleton.mp member
      exact (isComment_recordLine options _ _).isMarked

end

/-- A run on an instance of the right name prints marked lines only, unless the text of the
instance breaks a numeral with a line feed.  Then its last line is a lone quotation mark,
and only the other lines are marked. -/
theorem lines_are_marked_unless_broken (options : Options) {stamps : Nat → Stamp} (strict : Bool)
    (opened : Except String Source) (supported : extension? options.path = some "cnf")
    (fits : ∀ number, (stamps number).FitsLine)
    (reasons : ∀ reason, opened = .error reason → Unbroken reason) :
    ((∀ source, opened = .ok source → ¬source.BreaksNumeral) →
      ∀ line ∈ (run options stamps strict opened).printedLines, IsMarked line) ∧
    ∀ source, opened = .ok source → source.BreaksNumeral →
      ¬IsMarked "'" ∧
      ∃ before, (run options stamps strict opened).printedLines = before ++ ["'"] ∧
        ∀ line ∈ before, IsMarked line := by
  have opening := asides_openingEntries strict
  cases opened with
  | error reason =>
      rw [run, course_of_error options strict supported]
      refine ⟨?_, ?_⟩
      · intro _
        have unbroken : Unbroken (Failure.unopened reason).text :=
          unbroken_append.mpr ⟨by decide, unbroken_append.mpr ⟨by decide, reasons reason rfl⟩⟩
        have marked := ((failsWith_failed _).behind opening).marked unbroken
        exact marked.printedLines options fits
      · intro source opens
        cases opens
  | ok source =>
      rw [run, course_of_ok options strict supported]
      refine ⟨?_, ?_⟩
      · intro whole
        have marked := (marked_process options strict (whole source rfl)).behind opening
        exact Course.Marked.printedLines marked options fits
      · intro other same breaks
        cases same
        have rejected := Source.result_eq_break_iff.mpr breaks
        have fails := (failsWith_of_rejected options strict rejected).behind opening
        exact ⟨not_isMarked_quote, fails.printed_break options fits⟩

/-- A numeral that goes on behind a line feed leaves a lone quotation mark behind, and a whole
one does not. -/
theorem numeral_over_line_end_leaves_quote :
    let options : Options := { path := "a.cnf", assumptions := [], flags := [] }
    let stamps : Nat → Stamp := fun number => { time := number.repr, site := "here" }
    let broken := Source.ofBytes ("p cnf 1 1\n-\n1 0\n".toList.map Char.toUInt8)
    let whole := Source.ofBytes ("p cnf 1 1\n-1\n0\n".toList.map Char.toUInt8)
    (extension? options.path = some "cnf" ∧ (∀ number, (stamps number).FitsLine) ∧ broken.BreaksNumeral ∧
      ¬whole.BreaksNumeral) ∧
    (∃ before, (run options stamps false (.ok broken)).printedLines = before ++ ["'"]) ∧
      ∀ line ∈ (run options stamps false (.ok whole)).printedLines, IsMarked line := by
  intro options stamps broken whole
  have supported : extension? options.path = some "cnf" := by decide
  have fits : ∀ number, (stamps number).FitsLine := fun number =>
    ⟨unbroken_nat number, (by decide : Unbroken "here")⟩
  have breaks : broken.BreaksNumeral :=
    ⟨"p cnf 1 1\n-".toList.map Char.toUInt8, "1 0\n".toList.map Char.toUInt8,
      by decide +kernel, by decide +kernel⟩
  have keeps : ¬whole.BreaksNumeral := by
    rw [← Source.result_eq_break_iff]
    decide +kernel
  refine ⟨⟨supported, fits, breaks, keeps⟩, ?_, ?_⟩
  · rcases (lines_are_marked_unless_broken options false (.ok broken) supported fits nofun).2 _ rfl
      breaks with ⟨_, before, printed, _⟩
    exact ⟨before, printed⟩
  · apply (lines_are_marked_unless_broken options false (.ok whole) supported fits nofun).1
    intro source same
    cases same
    exact keeps

/-- A lone minus sign at the end of a line makes a line that is not marked. -/
theorem lone_minus_prints_unmarked_line :
    let options : Options :=
      { path := "a.cnf", assumptions := [], flags := [.omitTimestamp, .omitCallSite] }
    let stamps : Nat → Stamp := fun number => { time := number.repr, site := "here" }
    let source := Source.ofBytes ("p cnf 1 1\n-\n".toList.map Char.toUInt8)
    ∃ line ∈ (run options stamps false (.ok source)).printedLines, ¬IsMarked line := by
  intro options stamps source
  have printed : "'" ∈ (run options stamps false (.ok source)).printedLines := by
    decide +kernel
  exact ⟨"'", printed, not_isMarked_quote⟩

end CommandLine
end UnitPropagation
