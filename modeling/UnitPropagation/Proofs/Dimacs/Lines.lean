import UnitPropagation.Proofs.Dimacs.Items

namespace UnitPropagation
namespace Dimacs

/-!
# Reading lines

At the start of a line a reader does with a text what the lines do which the text
writes, one after the other.  The reader need not be told where the text ends: closing
a reader does to the last line what a line feed does to the others.
-/

namespace Reader

variable {reader next : Reader}

theorem endHeader_goTo (reader : Reader) (mode : Mode) (text : Array Char) :
    (reader.goTo mode).endHeader text = reader.endHeader text :=
  rfl

/-- A header is put in its place, unless there is one already or it has not its form. -/
theorem endHeader_cases (reader : Reader) (text : Array Char) :
    (∃ header, reader.header? = none ∧
      Header.ofText? (Text.trim isBlank text.toList) = some header ∧
        reader.endHeader text = { reader with header? := some header, mode := .lineStart }) ∨
      (reader.endHeader text).Failed := by
  unfold endHeader
  split
  · exact Or.inr (failed_reject reader _)
  · rename_i undeclared
    dsimp only
    split
    · rename_i header found
      exact Or.inl ⟨header, undeclared, found, rfl⟩
    · exact Or.inr (failed_reject reader _)

theorem Failed.close (failed : reader.Failed) : reader.close = reader := by
  rcases failed with ⟨failure, isFailed⟩
  rw [Reader.close, isFailed]

theorem close_of_lineStart (atStart : reader.mode = .lineStart) : reader.close = reader := by
  rw [close, atStart]
  exact goTo_of_mode atStart

/-- Whether a line has just ended, in one way or the other. -/
def Ended (reader : Reader) : Prop :=
  reader.mode = .lineStart ∨ reader.Failed

theorem Ended.close (ended : reader.Ended) : reader.close = reader := by
  rcases ended with atStart | failed
  · exact close_of_lineStart atStart
  · exact failed.close

theorem ended_endHeader (reader : Reader) (text : Array Char) : (reader.endHeader text).Ended := by
  rcases reader.endHeader_cases text with ⟨header, _, _, ended⟩ | failed
  · exact Or.inl (by rw [ended])
  · exact Or.inr failed

theorem ended_endNumeral (reader : Reader) (text : Array Char) :
    (reader.endNumeral text .lineStart).Ended := by
  unfold endNumeral
  split
  · exact Or.inr (failed_reject reader _)
  · simp only
    split
    · exact Or.inr (failed_reject reader _)
    · split
      · exact Or.inr (failed_reject reader _)
      · split
        · exact Or.inr (failed_reject reader _)
        · split
          · exact Or.inl rfl
          · exact Or.inr ⟨_, rfl⟩

theorem ended_step_break (reader : Reader) : (reader.step '\n').Ended := by
  have space : isSpace '\n' = true := rfl
  cases mode : reader.mode with
  | lineStart =>
      simp only [step, mode, space, if_true]
      exact Or.inl mode
  | header text =>
      simp only [step, mode, if_true]
      exact ended_endHeader reader text
  | comment =>
      simp only [step, mode, if_true]
      exact Or.inl rfl
  | minus =>
      have solid : isLeadingDigit '\n' = false := rfl
      simp only [step, mode, solid, Bool.false_eq_true, if_false]
      exact Or.inr (failed_reject reader _)
  | numeral text =>
      simp only [step, mode, if_true]
      exact ended_endNumeral reader text
  | inClause =>
      simp only [step, mode, if_true]
      exact Or.inl rfl
  | failed failure =>
      simp only [step, mode]
      exact Or.inr ⟨failure, mode⟩

/-! ## What a line does to the reader -/

/-- The reader behind a line, if nothing on it is refused. -/
def put? (reader : Reader) : Line → Option Reader
  | .blank | .comment => some reader
  | .header declared =>
    match reader.header? with
    | some _ => none
    | none => some { reader with header? := some declared }
  | .data items => reader.takeAll? items

def putAll? (reader : Reader) (lines : List Line) : Option Reader :=
  lines.foldlM put? reader

theorem putAll?_cons (reader : Reader) (line : Line) (lines : List Line) :
    reader.putAll? (line :: lines) = (reader.put? line).bind fun next => next.putAll? lines :=
  rfl

theorem put?_header_eq_some_iff {header : Header} :
    reader.put? (.header header) = some next ↔
      reader.header? = none ∧ next = { reader with header? := some header } := by
  cases declared : reader.header? with
  | none => simp [put?, declared, eq_comm]
  | some other => simp [put?, declared]

theorem mode_of_takeAll? {items : List Item} (taken : reader.takeAll? items = some next) :
    next.mode = reader.mode := by
  have moved := takeAll?_goTo taken reader.mode
  rw [goTo_of_mode rfl, taken, Option.some.injEq] at moved
  rw [moved]
  rfl

theorem mode_of_put? {line : Line} (put : reader.put? line = some next) :
    next.mode = reader.mode := by
  cases line with
  | blank =>
      cases put
      rfl
  | comment =>
      cases put
      rfl
  | header header =>
      rcases put?_header_eq_some_iff.mp put with ⟨_, rfl⟩
      rfl
  | data items => exact mode_of_takeAll? put

theorem mode_of_putAll? {lines : List Line} (put : reader.putAll? lines = some next) :
    next.mode = reader.mode := by
  induction lines generalizing reader with
  | nil =>
      cases put
      rfl
  | cons line lines ih =>
      rw [putAll?_cons, Option.bind_eq_some_iff] at put
      rcases put with ⟨between, first, others⟩
      rw [ih others, mode_of_put? first]

/-! ## Lines of each kind -/

theorem readText_spaces (atStart : reader.mode = .lineStart) {spaces : List Char}
    (space : ∀ c ∈ spaces, isSpace c = true) : reader.readText spaces = reader := by
  induction spaces with
  | nil => rfl
  | cons c spaces ih =>
      have stays : reader.step c = reader := by
        simp only [step, atStart, space c List.mem_cons_self, if_true]
      rw [readText_cons, stays]
      exact ih fun d member => space d (List.mem_cons_of_mem c member)

theorem step_comment (atStart : reader.mode = .lineStart) :
    reader.step 'c' = reader.goTo .comment := by
  simp only [step, atStart]
  rfl

theorem step_header (atStart : reader.mode = .lineStart) :
    reader.step 'p' = reader.goTo (.header ['p'].toArray) := by
  simp only [step, atStart]
  rfl

theorem close_readText_comment {text : List Char} (oneLine : OneLine text) :
    ((reader.goTo .comment).readText text).close = reader.goTo .lineStart := by
  induction text with
  | nil => rfl
  | cons c text ih =>
      by_cases ends : c = '\n'
      · subst ends
        cases oneLine.eq_nil_of_break
        rfl
      · have stays : (reader.goTo .comment).step c = reader.goTo .comment := by
          simp only [step, goTo, ends, if_false]
        rw [readText_cons, stays]
        exact ih oneLine.tail

/-- The text of a header is kept as it stands until the line ends. -/
theorem close_readText_header (front : List Char) {text : List Char} (oneLine : OneLine text) :
    ((reader.goTo (.header front.toArray)).readText text).close =
      reader.endHeader (front ++ text).toArray := by
  induction text generalizing front with
  | nil =>
      rw [List.append_nil]
      exact endHeader_goTo reader _ _
  | cons c text ih =>
      by_cases ends : c = '\n'
      · subst ends
        cases oneLine.eq_nil_of_break
        have ended : (reader.goTo (.header front.toArray)).readText ['\n'] =
            reader.endHeader front.toArray := endHeader_goTo reader _ _
        rw [ended, (ended_endHeader reader _).close]
        have blank : isBlank '\n' = true := rfl
        simp only [endHeader, Text.trim_concat blank]
      · have step : (reader.goTo (.header front.toArray)).step c =
            reader.goTo (.header (front ++ [c]).toArray) := by
          simp [step, goTo, ends]
        rw [readText_cons, step, ih (front ++ [c]) oneLine.tail, List.append_assoc,
          List.singleton_append]

/-- White space and the first character of an item are read alike at the start of a
line and between items. -/
theorem readText_items (atStart : reader.mode = .lineStart) {spaces text : List Char} {c : Char}
    (space : ∀ d ∈ spaces, isSpace d = true) (oneLine : OneLine (spaces ++ c :: text))
    (solid : isSpace c = false) (noHeader : c ≠ 'p') (noComment : c ≠ 'c') :
    reader.readText (spaces ++ c :: text) = (reader.goTo .inClause).readText (spaces ++ c :: text) := by
  have skipped : (reader.goTo .inClause).readText spaces = reader.goTo .inClause := by
    induction spaces with
    | nil => rfl
    | cons d spaces ih =>
        have inside : d ≠ '\n' := by
          rintro rfl
          cases spaces <;> cases oneLine.eq_nil_of_break
        have stays : (reader.goTo .inClause).step d = reader.goTo .inClause := by
          rw [step_space rfl (space d List.mem_cons_self), restMode_cons inside]
          rfl
        rw [readText_cons, stays]
        exact ih (fun e member => space e (List.mem_cons_of_mem d member)) oneLine.tail
  have begun : reader.step c = reader.beginItem c := by
    simp only [step, atStart, solid, noHeader, noComment, Bool.false_eq_true, if_false]
  rw [readText_append, readText_append, skipped, readText_spaces atStart space, readText_cons,
    readText_cons, begun, step_solid rfl solid, beginItem_goTo]

theorem close_goTo_restMode (reader : Reader) (text : List Char) :
    (reader.goTo (restMode text)).close = reader.goTo .lineStart := by
  unfold restMode
  split <;> rfl

theorem isSpace_of_writesItems {text : List Char} {items : List Item}
    (writes : WritesItems text items) (none : items = []) : ∀ c ∈ text, isSpace c = true := by
  induction writes with
  | nil => simp
  | space space _ ih =>
      intro d member
      rcases List.mem_cons.mp member with rfl | member
      · exact space
      · exact ih none d member
  | zero => cases none
  | code => cases none

/-- The first character of written items which is not white space begins an item. -/
theorem exists_first_of_writesItems {text : List Char} {items : List Item}
    (writes : WritesItems text items) (nonempty : items ≠ []) :
    ∃ spaces c rest, text = spaces ++ c :: rest ∧ (∀ d ∈ spaces, isSpace d = true) ∧
      isSpace c = false ∧ c ≠ 'p' ∧ c ≠ 'c' := by
  induction writes with
  | nil => exact absurd rfl nonempty
  | @space c text items space _ ih =>
      rcases ih nonempty with ⟨spaces, d, rest, rfl, spaced, first⟩
      refine ⟨c :: spaces, d, rest, rfl, ?_, first⟩
      intro e member
      rcases List.mem_cons.mp member with rfl | member
      · exact space
      · exact spaced e member
  | @zero text => exact ⟨[], '0', text, rfl, by simp, rfl, by decide, by decide⟩
  | @code numeral code c text items writesCode =>
      rcases writesCode with ⟨lead, digits, leading, _, ⟨rfl, _⟩ | ⟨rfl, _⟩⟩
      · refine ⟨[], lead, digits ++ c :: text, rfl, by simp, ?_, ?_, ?_⟩
        · exact not_isSpace_of_isDigit (isDigit_of_isLeadingDigit leading)
        · rintro rfl
          cases leading
        · rintro rfl
          cases leading
      · exact ⟨[], '-', _, rfl, by simp, rfl, by decide, by decide⟩

theorem close_readText_of_writesLine {text : List Char} {line : Line}
    (writes : WritesLine text line) (oneLine : OneLine text) (atStart : reader.mode = .lineStart)
    (put : reader.put? line = some next) : (reader.readText text).close = next := by
  cases writes with
  | blank space =>
      cases put
      rw [readText_spaces atStart space, close_of_lineStart atStart]
  | @comment spaces text space =>
      cases put
      rw [readText_append, readText_spaces atStart space, readText_cons, step_comment atStart,
        close_readText_comment oneLine.of_append.tail, goTo_of_mode atStart]
  | @header spaces text header space writesHeader =>
      rcases put?_header_eq_some_iff.mp put with ⟨undeclared, rfl⟩
      have first := writesHeader.head?
      have found := (ofText?_trim_eq_some_iff first).mpr writesHeader
      cases text with
      | nil => cases first
      | cons c text =>
          cases first
          rw [readText_append, readText_spaces atStart space, readText_cons, step_header atStart,
            close_readText_header ['p'] oneLine.of_append.tail, List.singleton_append, endHeader,
            undeclared]
          simp only [found]
          rw [atStart]
  | data writesItems nonempty =>
      rcases exists_first_of_writesItems writesItems nonempty with
        ⟨spaces, c, rest, rfl, space, solid, noHeader, noComment⟩
      have taken := takeAll?_goTo put .inClause
      have mode := (mode_of_put? put).trans atStart
      rw [readText_items atStart space oneLine solid noHeader noComment,
        readText_of_writesItems writesItems oneLine rfl taken, close_goTo_restMode, goTo_goTo,
        goTo_of_mode mode]

/-- If the line can end behind a text, the text writes a line which is not refused. -/
theorem exists_line_of_rests {text : List Char} (oneLine : OneLine text)
    (atStart : reader.mode = .lineStart) (rests : (reader.readText text).Rests) :
    ∃ line next, WritesLine text line ∧ reader.put? line = some next := by
  rcases Text.exists_run isSpace text with ⟨spaces, rest, rfl, space, solid⟩
  cases rest with
  | nil =>
      rw [List.append_nil]
      exact ⟨.blank, reader, .blank space, rfl⟩
  | cons c rest =>
      by_cases noComment : c = 'c'
      · subst noComment
        exact ⟨.comment, reader, .comment space, rfl⟩
      · by_cases noHeader : c = 'p'
        · subst noHeader
          rw [readText_append, readText_spaces atStart space, readText_cons, step_header atStart,
            Rests, close_readText_header ['p'] oneLine.of_append.tail] at rests
          rcases reader.endHeader_cases (['p'] ++ rest).toArray with
            ⟨header, undeclared, found, _⟩ | ⟨failure, failed⟩
          · refine ⟨.header header, _, .header space ?_, put?_header_eq_some_iff.mpr ⟨undeclared, rfl⟩⟩
            exact (ofText?_trim_eq_some_iff rfl).mp found
          · cases rests.symm.trans failed
        · rw [readText_items atStart space oneLine (solid c rfl) noHeader noComment] at rests
          rcases itemized_of_rests _ oneLine _ rfl rests with ⟨items, next, writes, taken⟩
          have takenHere := takeAll?_goTo taken reader.mode
          rw [goTo_goTo, goTo_of_mode rfl] at takenHere
          refine ⟨.data items, _, .data writes ?_, takenHere⟩
          intro none
          have isSpace := isSpace_of_writesItems writes none c (by simp)
          exact absurd isSpace (by simp [solid c rfl])

/-- A reader at the start of a line does with a text what its lines do. -/
theorem close_readText_of_writesLines {text : List Char} {lines : List Line}
    (writes : WritesLines text lines) : ∀ {reader next : Reader}, reader.mode = .lineStart →
      reader.putAll? lines = some next → (reader.readText text).close = next := by
  induction writes with
  | @last text line noBreak writesLine =>
      intro reader next atStart put
      rw [putAll?_cons, Option.bind_eq_some_iff] at put
      rcases put with ⟨only, put, finished⟩
      cases finished
      exact close_readText_of_writesLine writesLine (oneLine_of_not_mem noBreak) atStart put
  | @cons text more line lines noBreak writesLine _ ih =>
      intro reader next atStart put
      rw [putAll?_cons, Option.bind_eq_some_iff] at put
      rcases put with ⟨first, put, others⟩
      have closed := close_readText_of_writesLine writesLine (oneLine_concat_break noBreak) atStart put
      rw [readText_append, readText_cons, readText_nil, (ended_step_break _).close] at closed
      rw [readText_append, readText_cons, closed]
      exact ih ((mode_of_put? put).trans atStart) others

/-- If a text can end where it ends, it writes lines, none of which is refused. -/
theorem exists_lines_of_rests (text : List Char) (reader : Reader)
    (atStart : reader.mode = .lineStart) (rests : (reader.readText text).Rests) :
    ∃ lines next, WritesLines text lines ∧ reader.putAll? lines = some next := by
  rcases Text.exists_run (fun c => c != '\n') text with ⟨first, rest, same, inside, ends⟩
  have noBreak : '\n' ∉ first := fun member => absurd (inside '\n' member) (by simp)
  match rest with
  | [] =>
      rw [List.append_nil] at same
      subst same
      rcases exists_line_of_rests (oneLine_of_not_mem noBreak) atStart rests with
        ⟨line, next, writes, put⟩
      refine ⟨[line], next, .last noBreak writes, ?_⟩
      rw [putAll?_cons, put]
      rfl
  | c :: more =>
      have isBreak : c = '\n' := by simpa using ends c rfl
      subst isBreak
      have cut : text = (first ++ ['\n']) ++ more := by simp [same]
      rw [cut, readText_append] at rests
      have ended : (reader.readText (first ++ ['\n'])).Ended := by
        rw [readText_append]
        exact ended_step_break _
      have closed := ended.close
      rcases ended with atNext | failed
      · have restsFirst : (reader.readText (first ++ ['\n'])).Rests := by
          rw [Rests, closed]
          exact atNext
        have oneLine := oneLine_concat_break noBreak
        rcases exists_line_of_rests oneLine atStart restsFirst with ⟨line, between, writes, put⟩
        rw [close_readText_of_writesLine writes oneLine atStart put] at closed
        rw [← closed] at rests
        rcases exists_lines_of_rests more between ((mode_of_put? put).trans atStart) rests with
          ⟨lines, next, writesMore, others⟩
        refine ⟨line :: lines, next, same ▸ .cons noBreak writes writesMore, ?_⟩
        rw [putAll?_cons, put]
        exact others
      · exact absurd rests (not_rests_of_failed failed more)
termination_by text.length
decreasing_by
  rw [cut, List.length_append, List.length_append, List.length_singleton]
  omega

end Reader
end Dimacs
end UnitPropagation
