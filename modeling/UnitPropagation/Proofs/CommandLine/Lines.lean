import UnitPropagation.CommandLine.Answer
import UnitPropagation.Proofs.Wording

namespace UnitPropagation

/-!
# Printed lines

The lines of a report are printed as they are, as long as they have no line feeds.
This is so for all lines but those of a failure: whatever a clause, a conflict, an event
or a tally says is made of fixed words and of numbers.

Entries are laid out one by one, so what is known of each entry holds for all lines, whatever
stamps the entries have.  An aside is an entry that becomes a comment or no line at all.  Most
courses tell something between asides, and the lines of what is told are printed as they are.
-/

namespace CommandLine

theorem linesOf_of_unbroken {line : String} (unbroken : Unbroken line) : linesOf line = [line] := by
  have solid : ∀ c ∈ line.toList, decide (c = '\n') = false := by
    intro c member
    apply decide_eq_false
    rintro rfl
    exact unbroken member
  rw [linesOf, Text.split_of_solid solid, List.map_singleton, String.ofList_toList]

theorem linesOf_ne_nil (text : String) : linesOf text ≠ [] := by
  rcases Text.exists_split_eq_cons (· = '\n') text.toList with ⟨piece, pieces, cut⟩
  simp [linesOf, cut]

theorem linesOf_append_break (line text : String) :
    linesOf (line ++ "\n" ++ text) = linesOf line ++ linesOf text := by
  have cut : Text.split (· = '\n') (line.toList ++ '\n' :: text.toList) =
      Text.split (· = '\n') line.toList ++ Text.split (· = '\n') text.toList :=
    Text.split_append_separator rfl _ _
  simp [linesOf, cut]

theorem printedLines_eq (report : Report) : report.printedLines = report.lines.flatMap linesOf := by
  rw [Report.printedLines, Report.output]
  induction report.lines with
  | nil => rfl
  | cons line lines ih =>
      rw [List.map_cons, String.join_cons, linesOf_append_break,
        List.dropLast_append_of_ne_nil (linesOf_ne_nil _), ih, List.flatMap_cons]

theorem flatMap_linesOf {lines : List String} (unbroken : ∀ line ∈ lines, Unbroken line) :
    lines.flatMap linesOf = lines := by
  induction lines with
  | nil => rfl
  | cons line lines ih =>
      rcases List.forall_mem_cons.mp unbroken with ⟨first, others⟩
      rw [List.flatMap_cons, linesOf_of_unbroken first, ih others, List.singleton_append]

/-- Whether all lines are comments without line feeds, so that each is printed as one line. -/
def Comments (lines : List String) : Prop :=
  ∀ line ∈ lines, Unbroken line ∧ IsComment line

theorem IsComment.not_speaksUp {line : String} (comment : IsComment line) : ¬SpeaksUp line := by
  rcases comment with ⟨text, rfl⟩
  simp [SpeaksUp]

/-- Whether an entry can only become a comment without line feeds.  A record always becomes a
comment, but its message could break the line. -/
def Entry.IsAside : Entry → Prop
  | .record told => Unbroken told.message
  | .line text => Unbroken text ∧ IsComment text

def Asides (entries : List Entry) : Prop :=
  ∀ entry ∈ entries, entry.IsAside

theorem Asides.append {entries more : List Entry} (first : Asides entries) (second : Asides more) :
    Asides (entries ++ more) :=
  List.forall_mem_append.mpr ⟨first, second⟩

theorem asides_records {log : List Log.Record} (unbroken : ∀ record ∈ log, Unbroken record.message) :
    Asides (log.map .record) := by
  intro entry member
  rcases List.mem_map.mp member with ⟨record, isLogged, rfl⟩
  exact unbroken record isLogged

theorem asides_traceEntries (trace : Array Event) : Asides (traceEntries trace) := by
  intro entry member
  rcases List.mem_map.mp member with ⟨event, _, rfl⟩
  exact event.unbroken_message

theorem asides_skipEntries (clauses : List (List Literal)) : Asides (skipEntries clauses) := by
  apply asides_records
  intro record member
  rcases List.mem_map.mp member with ⟨clause, _, rfl⟩
  exact Dimacs.unbroken_skipRecord clause

/-- The names and the values of a tally fit into a line. -/
theorem asides_tallyLines (options : Options) (tally : Tally) :
    Asides ((tallyLines options tally).map .line) := by
  intro aside isTold
  rcases List.mem_map.mp isTold with ⟨line, member, rfl⟩
  rw [tallyLines] at member
  split at member
  · rcases List.mem_map.mp member with ⟨entry, isEntry, rfl⟩
    have unbroken : Unbroken entry.name ∧ Unbroken entry.value := by
      simp only [Tally.statistic, Tally.counts, Statistic.entries, Statistic.memberEntries,
        List.map_cons, List.map_nil, List.append_nil, List.cons_append, List.nil_append] at isEntry
      simp only [List.mem_cons, List.not_mem_nil, or_false] at isEntry
      rcases isEntry with rfl | rfl | rfl | rfl | rfl | rfl <;> dsimp only [toString] <;>
        exact ⟨by decide, unbroken_nat _⟩
    refine ⟨?_, ⟨"STAT " ++ entry.name ++ "=" ++ entry.value, ?_⟩⟩
    · simp +decide [Statistic.Style.line, Statistic.Style.comment, unbroken]
    · simp only [Statistic.Style.line, Statistic.Style.comment, ← String.append_assoc]
      rfl
  · cases member

/-! ## Entries as they are laid out -/

section

variable (options : Options)

theorem isComment_recordLine (stamp : Stamp) (record : Log.Record) :
    IsComment (recordLine options stamp record) := by
  simp only [recordLine, String.append_assoc]
  exact ⟨_, rfl⟩

theorem recordLine_append (stamp : Stamp) (level : Log.Level) (message more : String) :
    recordLine options stamp { level, message := message ++ more } =
      recordLine options stamp { level, message } ++ more := by
  simp only [recordLine, String.append_assoc]

/-- Only the message of a record can break its line. -/
theorem unbroken_recordLine {stamp : Stamp} (fits : stamp.FitsLine) {record : Log.Record}
    (unbroken : Unbroken record.message) : Unbroken (recordLine options stamp record) := by
  have level : Unbroken record.level.name := by
    cases record.level <;> decide
  simp only [recordLine, unbroken_append]
  refine ⟨⟨⟨⟨⟨by decide, ?_⟩, level⟩, by decide⟩, ?_⟩, unbroken⟩
  · split
    · decide
    · exact unbroken_append.mpr ⟨fits.time, by decide⟩
  · split
    · decide
    · simp +decide [fits.site]

variable (stamps : Nat → Stamp) (first : Nat)

theorem layOut_append (entries more : List Entry) :
    layOut options stamps first (entries ++ more) =
      layOut options stamps first entries ++
        layOut options stamps (first + entries.length) more := by
  rw [layOut, List.zipIdx_append, List.flatMap_append]
  rfl

theorem layOut_singleton (entry : Entry) :
    layOut options stamps first [entry] = entry.lines options (stamps first) := by
  simp [layOut]

theorem layOut_lines (texts : List String) :
    layOut options stamps first (texts.map .line) = texts := by
  induction texts generalizing first with
  | nil => rfl
  | cons text texts ih =>
      rw [List.map_cons, ← List.singleton_append, layOut_append, ih, layOut_singleton]
      rfl

theorem layOut_error (message : String) :
    layOut options stamps first [.record { level := .error, message }] =
      [recordLine options (stamps first) { level := .error, message }] := by
  rw [layOut_singleton, Entry.lines, threshold]
  split <;> rfl

variable {stamps}

theorem Entry.IsAside.comments {stamp : Stamp} (fits : stamp.FitsLine) {entry : Entry}
    (aside : entry.IsAside) : Comments (entry.lines options stamp) := by
  cases entry with
  | record told =>
      dsimp only [Entry.lines]
      split
      · intro line member
        cases List.mem_singleton.mp member
        exact ⟨unbroken_recordLine options fits aside, isComment_recordLine options stamp told⟩
      · exact fun _ member => absurd member List.not_mem_nil
  | line text =>
      intro line member
      cases List.mem_singleton.mp member
      exact aside

theorem comments_layOut (fits : ∀ number, (stamps number).FitsLine) {entries : List Entry}
    (asides : Asides entries) : Comments (layOut options stamps first entries) := by
  intro line member
  rcases List.mem_flatMap.mp member with ⟨⟨entry, number⟩, numbered, member⟩
  have aside := asides entry (List.fst_mem_of_mem_zipIdx numbered)
  exact aside.comments options (fits number) line member

end

/-- Whether some lines are told between asides, of which `told` holds, together with the status
of the course. -/
def Course.Tells (course : Course) (told : Nat → List String → Prop) : Prop :=
  ∃ before lines after, course.entries = before ++ lines.map .line ++ after ∧
    told course.exit lines ∧ (∀ line ∈ lines, Unbroken line) ∧ Asides before ∧ Asides after

namespace Course.Tells

variable {course : Course} {told : Nat → List String → Prop}

theorem mono {more : Nat → List String → Prop} (tells : course.Tells told)
    (le : ∀ exit lines, told exit lines → more exit lines) : course.Tells more := by
  rcases tells with ⟨before, lines, after, entries, isTold, unbroken, asides⟩
  exact ⟨before, lines, after, entries, le _ _ isTold, unbroken, asides⟩

theorem behind (tells : course.Tells told) {entries : List Entry} (asides : Asides entries) :
    (course.behind entries).Tells told := by
  rcases tells with ⟨before, lines, after, cut, isTold, unbroken, asidesBefore, asidesAfter⟩
  refine ⟨entries ++ before, lines, after, ?_, isTold, unbroken, asides.append asidesBefore,
    asidesAfter⟩
  simp only [Course.behind, cut, List.append_assoc]

/-- Whatever the stamps are, the lines that are told are printed as they are, between comments. -/
theorem printed (tells : course.Tells told) (options : Options) {stamps : Nat → Stamp}
    (fits : ∀ number, (stamps number).FitsLine) :
    ∃ before lines after,
      (course.report options stamps).printedLines = before ++ lines ++ after ∧
        told course.exit lines ∧ (∀ line ∈ lines, Unbroken line) ∧
          Comments before ∧ Comments after := by
  rcases tells with ⟨before, lines, after, cut, isTold, unbroken, asidesBefore, asidesAfter⟩
  have commentsBefore := comments_layOut options 0 fits asidesBefore
  have commentsAfter :=
    comments_layOut options (0 + (before ++ lines.map Entry.line).length) fits asidesAfter
  refine ⟨_, lines, _, ?_, isTold, unbroken, commentsBefore, commentsAfter⟩
  rw [printedLines_eq, Course.report, cut, layOut_append, layOut_append, layOut_lines,
    flatMap_linesOf]
  exact List.forall_mem_append.mpr ⟨List.forall_mem_append.mpr ⟨fun line member => (commentsBefore line member).1, unbroken⟩,
    fun line member => (commentsAfter line member).1⟩

end Course.Tells

end CommandLine
end UnitPropagation
