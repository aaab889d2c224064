import UnitPropagation.CommandLine.Run
import UnitPropagation.Meaning.Consequence

namespace UnitPropagation
namespace CommandLine

/-!
# Answers

What a run should print is said here by the clauses of the file and the assumed
literals alone.  A run answers if it prints an answer between comments, and it fails
if it prints why and leaves no doubt that this is no answer.
-/

/-- The pieces of a text between its line feeds.  The last of them is empty if a line feed ends the
text. -/
def linesOf (text : String) : List String :=
  (Text.split (· = '\n') text.toList).map String.ofList

/-- The lines of the printed text, each of which is ended by a line feed. -/
def Report.printedLines (report : Report) : List String :=
  (linesOf report.output).dropLast

/-- Whether a line is a comment in the output format of solvers. -/
def IsComment (line : String) : Prop :=
  ∃ text, line = "c " ++ text

/-- Whether a line could be taken for a part of an answer, which shows in its first character. -/
def SpeaksUp (line : String) : Prop :=
  line.toList.head? = some 's' ∨ line.toList.head? = some 'v'

/-- Whether the lines are the right answer for the clauses and the given literals.  The
right answer lists the unit consequences in the order of their variables, unless they are
contradictory or a clause is empty. -/
inductive AnswerFor (clauses : List (List Literal)) (given : Literal → Prop) :
    List String → Prop where
  | consistent {literals : List Literal} :
    [] ∉ clauses → ¬Contradictory (UnitConsequence clauses given) →
      (∀ literal, literal ∈ literals ↔ UnitConsequence clauses given literal) →
        literals.Pairwise (fun first second => first.var.index < second.var.index) →
          AnswerFor clauses given
            ["s CONSISTENT", "v " ++ " ".intercalate (literals.map Literal.text ++ ["0"])]
  | inconsistent {reason : String} :
    [] ∈ clauses ∨ Contradictory (UnitConsequence clauses given) →
      AnswerFor clauses given ["s INCONSISTENT", "c " ++ reason]

/-- Whether a report gives the right answer and nothing else but comments. -/
structure Report.Answers (report : Report) (clauses : List (List Literal))
    (given : Literal → Prop) : Prop where
  exit_eq : report.exit = 0
  exists_answer : ∃ before answer after, report.printedLines = before ++ answer ++ after ∧
    AnswerFor clauses given answer ∧ (∀ line ∈ before, IsComment line) ∧
      ∀ line ∈ after, IsComment line

/-- Whether a report ends with the record of a failure, stamped like any other, and gives no
answer. -/
structure Report.FailsWith (report : Report) (options : Options) (stamps : Nat → Stamp)
    (failure : Failure) : Prop where
  exit_eq : report.exit = 1
  ends : ∃ before number, report.printedLines = before ++
    linesOf (recordLine options (stamps number) { level := .error, message := failure.text })
  silent : ∀ line ∈ report.printedLines, ¬SpeaksUp line

/-- Whether nothing in the stamp breaks a line, neither the time nor the place. -/
structure Stamp.FitsLine (stamp : Stamp) : Prop where
  time : Unbroken stamp.time
  site : Unbroken stamp.site

/-- Whether the number is the code of a literal over the declared variables. -/
def IsAssumption (variableCount : Nat) (code : Int) : Prop :=
  code ≠ 0 ∧ code ≠ -2147483648 ∧ code.natAbs ≤ variableCount

instance (variableCount : Nat) (code : Int) : Decidable (IsAssumption variableCount code) :=
  inferInstanceAs (Decidable (_ ∧ _))

end CommandLine
end UnitPropagation
