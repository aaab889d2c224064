import UnitPropagation.Dimacs.Source
import UnitPropagation.Proofs.Dimacs.Lines

namespace UnitPropagation
namespace Dimacs

/-!
# Accepted texts

A text is accepted exactly if it writes lines which are arranged, and what comes of it
are the clauses that were written.  What a reader has taken so far can be spelt out as
items again, and each item that it takes is added to them.
-/

/-- Whether the line is neither a header nor has items.  Such a line leaves the reader as it is. -/
def Line.IsQuiet (line : Line) : Prop :=
  line.header? = none ∧ line.items = []

theorem itemsOf_cons (line : Line) (lines : List Line) :
    itemsOf (line :: lines) = line.items ++ itemsOf lines :=
  List.flatMap_cons

namespace Reader

variable {reader next : Reader}

/-- The items that were read so far, of complete clauses and of the pending one. -/
def written (reader : Reader) : List Item :=
  itemsOfClauses reader.clauses.toList ++ reader.pending.toList.map fun literal => .code literal.code

/-- Whether a code may occur under a header, which is so for the literals over its variables. -/
def InRange (header : Header) (code : Int) : Prop :=
  code.natAbs ≤ min header.variableCount 2147483647

theorem header?_of_take? {item : Item} (taken : reader.take? item = some next) :
    next.header? = reader.header? := by
  cases item with
  | zero =>
      rcases take?_zero_eq_some_iff.mp taken with ⟨_, rfl⟩
      rfl
  | code code =>
      rcases take?_code_eq_some_iff.mp taken with ⟨_, _, _, _, _, rfl⟩
      rfl

theorem written_of_take? {item : Item} (taken : reader.take? item = some next) :
    next.written = reader.written ++ [item] := by
  cases item with
  | zero =>
      rcases take?_zero_eq_some_iff.mp taken with ⟨_, rfl⟩
      simp [written, itemsOfClauses]
  | code code =>
      rcases take?_code_eq_some_iff.mp taken with ⟨_, literal, _, rfl, _, rfl⟩
      simp [written]

theorem inRange_of_take? {code : Int} {header : Header} (declared : reader.header? = some header)
    (taken : reader.take? (.code code) = some next) : InRange header code := by
  rcases take?_code_eq_some_iff.mp taken with ⟨other, literal, found, rfl, small, _⟩
  cases declared.symm.trans found
  have bound := literal.natAbs_code_lt
  unfold InRange
  omega

theorem exists_take? {item : Item} {header : Header} (declared : reader.header? = some header)
    (inRange : ∀ code, item = .code code → code ≠ 0 ∧ InRange header code) :
    ∃ next, reader.take? item = some next := by
  cases item with
  | zero => exact ⟨_, take?_zero_eq_some_iff.mpr ⟨by simp [declared], rfl⟩⟩
  | code code =>
      rcases inRange code rfl with ⟨nonzero, bound⟩
      unfold InRange at bound
      exact ⟨_, take?_code_eq_some_iff.mpr
        ⟨header, ⟨code, nonzero, by omega⟩, declared, rfl, by omega, rfl⟩⟩

/-- What several items do: they are added to those that were read. -/
theorem takeAll?_spec {header : Header} {items : List Item} (declared : reader.header? = some header)
    (taken : reader.takeAll? items = some next) :
    next.header? = some header ∧ next.written = reader.written ++ items ∧
      ∀ code, .code code ∈ items → InRange header code := by
  induction items generalizing reader with
  | nil =>
      cases taken
      exact ⟨declared, by rw [List.append_nil], by simp⟩
  | cons item items ih =>
      rw [takeAll?_cons, Option.bind_eq_some_iff] at taken
      rcases taken with ⟨between, first, others⟩
      rcases ih ((header?_of_take? first).trans declared) others with ⟨kept, written, inRange⟩
      refine ⟨kept, ?_, ?_⟩
      · rw [written, written_of_take? first, List.append_assoc, List.singleton_append]
      · intro code member
        rcases List.mem_cons.mp member with rfl | member
        · exact inRange_of_take? declared first
        · exact inRange code member

theorem exists_takeAll? {header : Header} {items : List Item}
    (declared : reader.header? = some header)
    (inRange : ∀ code, .code code ∈ items → code ≠ 0 ∧ InRange header code) :
    ∃ next, reader.takeAll? items = some next := by
  induction items generalizing reader with
  | nil => exact ⟨reader, rfl⟩
  | cons item items ih =>
      rcases exists_take? declared fun code same => inRange code (same ▸ List.mem_cons_self) with
        ⟨between, first⟩
      rcases ih ((header?_of_take? first).trans declared) fun code member =>
        inRange code (List.mem_cons_of_mem item member) with ⟨next, others⟩
      refine ⟨next, ?_⟩
      rw [takeAll?_cons, first]
      exact others

theorem finish_eq_ok_iff {content : Content} :
    reader.finish = .ok content ↔ reader.Rests ∧ reader.close.content = .ok content := by
  cases mode : reader.mode with
  | failed failure => simp [finish, Rests, close, mode]
  | minus => simp [finish, Rests, close, mode, reject, goTo]
  | numeral text => simp [finish, Rests, close, mode, reject, goTo]
  | header text =>
      simp only [finish, Rests, close, mode]
      rcases ended_endHeader reader text with atStart | ⟨failure, isFailed⟩
      · simp [atStart]
      · simp [isFailed]
  | lineStart => simp [finish, Rests, close, mode, goTo, Reader.content]
  | comment => simp [finish, Rests, close, mode, goTo, Reader.content]
  | inClause => simp [finish, Rests, close, mode, goTo, Reader.content]

theorem clauses_close (reader : Reader) : reader.close.clauses = reader.clauses := by
  cases mode : reader.mode with
  | header text =>
      rw [close, mode]
      dsimp only
      unfold endHeader
      split
      · rfl
      · dsimp only
        split <;> rfl
  | failed failure => rw [close, mode]
  | minus => simp only [close, mode, reject, goTo]
  | numeral text => simp only [close, mode, reject, goTo]
  | lineStart => simp only [close, mode, goTo]
  | comment => simp only [close, mode, goTo]
  | inClause => simp only [close, mode, goTo]

/-- A text ends well if no clause is open and there are as many clauses as declared. -/
theorem content_eq_ok_iff {content : Content} :
    reader.content = .ok content ↔ ∃ header, reader.header? = some header ∧
      reader.pending = #[] ∧ header.clauseCount = reader.clauses.size ∧
        content = ⟨header.variableCount, reader.clauses.toList⟩ := by
  cases declared : reader.header? with
  | none => simp [Reader.content, declared]
  | some header =>
      by_cases empty : reader.pending = #[]
      · by_cases count : header.clauseCount = reader.clauses.size
        · simp [Reader.content, declared, empty, count, eq_comm]
        · simp [Reader.content, declared, empty, count]
      · simp [Reader.content, declared, empty]

theorem written_of_pending_eq (empty : reader.pending = #[]) :
    reader.written = itemsOfClauses reader.clauses.toList := by
  simp [written, empty]

/-! ## Lines before and behind the header -/

theorem takeAll?_append (reader : Reader) (items more : List Item) :
    reader.takeAll? (items ++ more) = (reader.takeAll? items).bind fun next => next.takeAll? more :=
  List.foldlM_append

/-- Behind a header the lines do what their items do, and there is no other header. -/
theorem putAll?_of_header {header : Header} {lines : List Line}
    (declared : reader.header? = some header) :
    reader.putAll? lines = some next ↔
      lines.filterMap Line.header? = [] ∧ reader.takeAll? (itemsOf lines) = some next := by
  induction lines generalizing reader with
  | nil => simp [putAll?, takeAll?, itemsOf]
  | cons line lines ih =>
      rw [putAll?_cons, itemsOf_cons]
      cases line with
      | blank => simpa [put?, Line.header?, Line.items] using ih declared
      | comment => simpa [put?, Line.header?, Line.items] using ih declared
      | header other => simp [put?, declared, Line.header?]
      | data items =>
          simp only [put?, Line.items, takeAll?_append]
          cases taken : reader.takeAll? items with
          | none => simp
          | some between =>
              have kept := (takeAll?_spec declared taken).1
              simpa [Line.header?] using ih kept

theorem putAll?_of_quiet {lines : List Line} (quiet : ∀ line ∈ lines, line.IsQuiet) :
    reader.putAll? lines = some reader := by
  induction lines with
  | nil => rfl
  | cons line lines ih =>
      have put : reader.put? line = some reader := by
        rcases quiet line List.mem_cons_self with ⟨noHeader, noItems⟩
        cases line with
        | blank => rfl
        | comment => rfl
        | header header => cases noHeader
        | data items =>
            cases noItems
            rfl
      rw [putAll?_cons, put]
      exact ih fun other member => quiet other (List.mem_cons_of_mem line member)

theorem putAll?_append_header (undeclared : reader.header? = none) {before after : List Line}
    (quiet : ∀ line ∈ before, line.IsQuiet) (header : Header) :
    reader.putAll? (before ++ .header header :: after) =
      ({ reader with header? := some header } : Reader).putAll? after := by
  have appended : reader.putAll? (before ++ .header header :: after) =
      (reader.putAll? before).bind fun next => next.putAll? (.header header :: after) :=
    List.foldlM_append
  have put : reader.put? (.header header) = some { reader with header? := some header } :=
    put?_header_eq_some_iff.mpr ⟨undeclared, rfl⟩
  rw [appended, putAll?_of_quiet quiet, Option.bind_some, putAll?_cons, put, Option.bind_some]

/-- Where no header is known nothing can be read before one but quiet lines. -/
theorem exists_header_of_putAll? {lines : List Line} (undeclared : reader.header? = none)
    (put : reader.putAll? lines = some next) (declared : next.header? ≠ none) :
    ∃ before header after, lines = before ++ .header header :: after ∧
      ∀ line ∈ before, line.IsQuiet := by
  induction lines with
  | nil =>
      cases put
      exact absurd undeclared declared
  | cons line lines ih =>
      rw [putAll?_cons, Option.bind_eq_some_iff] at put
      rcases put with ⟨between, first, others⟩
      have step : line.IsQuiet → reader.put? line = some reader →
          ∃ before header after, line :: lines = before ++ .header header :: after ∧
            ∀ line ∈ before, line.IsQuiet := by
        intro quiet stays
        cases first.symm.trans stays
        rcases ih others with ⟨before, header, after, rfl, quietBefore⟩
        exact ⟨line :: before, header, after, rfl, List.forall_mem_cons.mpr ⟨quiet, quietBefore⟩⟩
      cases line with
      | blank => exact step ⟨rfl, rfl⟩ rfl
      | comment => exact step ⟨rfl, rfl⟩ rfl
      | header header => exact ⟨[], header, lines, rfl, by simp⟩
      | data items =>
          cases items with
          | nil => exact step ⟨rfl, rfl⟩ rfl
          | cons item items =>
              have refused : reader.take? item = none := by
                simp [take?, undeclared]
              rw [put?, takeAll?_cons, refused] at first
              cases first

end Reader

/-! ## What is put one after the other is arranged -/

theorem itemsOf_eq_nil_of_quiet {lines : List Line} (quiet : ∀ line ∈ lines, line.IsQuiet) :
    itemsOf lines = [] := by
  apply List.flatMap_eq_nil_iff.mpr
  intro line member
  exact (quiet line member).2

theorem itemsOf_append_header {before after : List Line} (quiet : ∀ line ∈ before, line.IsQuiet)
    (header : Header) : itemsOf (before ++ .header header :: after) = itemsOf after := by
  have appended : itemsOf (before ++ .header header :: after) =
      itemsOf before ++ itemsOf (.header header :: after) := List.flatMap_append
  rw [appended, itemsOf_eq_nil_of_quiet quiet, List.nil_append]
  rfl

theorem count_itemsOfClauses (clauses : List (List Literal)) :
    (itemsOfClauses clauses).count .zero = clauses.length := by
  induction clauses with
  | nil => rfl
  | cons clause clauses ih =>
      have cons : itemsOfClauses (clause :: clauses) =
          (clause.map (fun literal => .code literal.code) ++ [.zero]) ++ itemsOfClauses clauses :=
        List.flatMap_cons
      have none : (clause.map fun literal => Item.code literal.code).count .zero = 0 := by
        simp [List.count_eq_zero]
      rw [cons, List.count_append, List.count_append, none, ih, List.length_cons, Nat.zero_add,
        Nat.add_comm]
      rfl

theorem getLast?_itemsOfClauses {clauses : List (List Literal)} {item : Item}
    (last : (itemsOfClauses clauses).getLast? = some item) : item = .zero := by
  rcases List.eq_nil_or_concat clauses with rfl | ⟨front, clause, rfl⟩
  · cases last
  · simp [itemsOfClauses] at last
    exact last.symm

/-- A header stands before all items if the lines before it are quiet. -/
theorem header_first_of_quiet {front back : List Line} {header : Header}
    (quiet : ∀ line ∈ front, line.IsQuiet) :
    ∀ before line after, front ++ .header header :: back = before ++ line :: after →
      line.items ≠ [] → .header header ∈ before := by
  intro before line after same hasItems
  rcases List.append_eq_append_iff.mp same with ⟨more, rfl, others⟩ | ⟨more, rfl, others⟩
  · cases more with
    | nil =>
        cases others
        exact absurd rfl hasItems
    | cons first more =>
        cases others
        exact List.mem_append_right _ List.mem_cons_self
  · cases more with
    | nil =>
        cases others
        exact absurd rfl hasItems
    | cons first more =>
        cases others
        exact absurd (quiet line (by simp)).2 hasItems

theorem Arranged.exists_cut {lines : List Line} {header : Header} (arranged : Arranged lines header) :
    ∃ front back, lines = front ++ .header header :: back ∧ (∀ line ∈ front, line.IsQuiet) ∧
      back.filterMap Line.header? = [] := by
  rcases List.filterMap_eq_cons_iff.mp arranged.one_header with
    ⟨front, line, back, same, noHeader, isHeader, noOther⟩
  have here : line = .header header := by
    cases line with
    | header other =>
        cases isHeader
        rfl
    | blank => cases isHeader
    | comment => cases isHeader
    | data items => cases isHeader
  subst here
  refine ⟨front, back, same, ?_, noOther⟩
  intro other member
  refine ⟨noHeader other member, ?_⟩
  -- An item before the header would need another header before it.
  apply Decidable.byContradiction
  intro hasItems
  rcases List.append_of_mem member with ⟨before, after, rfl⟩
  have earlier := arranged.header_first before other (after ++ .header header :: back)
    (by rw [same, List.append_assoc, List.cons_append]) hasItems
  cases noHeader _ (List.mem_append_left _ earlier)

namespace Reader

variable {lines : List Line} {next : Reader} {content : Content}

/-- Lines after which the text may end are arranged, and their items are those of the clauses. -/
theorem arranged_of_putAll? (put : start.putAll? lines = some next)
    (ended : next.content = .ok content) : ∃ header, Arranged lines header ∧
      content.variableCount = header.variableCount ∧
        itemsOf lines = itemsOfClauses content.clauses := by
  rcases content_eq_ok_iff.mp ended with ⟨header, declared, empty, count, rfl⟩
  have isDeclared : next.header? ≠ none := by simp [declared]
  rcases exists_header_of_putAll? rfl put isDeclared with ⟨front, other, back, rfl, quiet⟩
  rw [putAll?_append_header rfl quiet] at put
  rcases (putAll?_of_header rfl).mp put with ⟨noOther, taken⟩
  rcases takeAll?_spec rfl taken with ⟨kept, written, inRange⟩
  cases declared.symm.trans kept
  have items : itemsOf (front ++ .header header :: back) = itemsOf back :=
    itemsOf_append_header quiet header
  have clauses : itemsOf back = itemsOfClauses next.clauses.toList :=
    written.symm.trans (written_of_pending_eq empty)
  have noHeader : front.filterMap Line.header? = [] :=
    List.filterMap_eq_nil_iff.mpr fun line member => (quiet line member).1
  refine ⟨header, ?_, rfl, items.trans clauses⟩
  constructor
  case one_header => simp [noHeader, noOther, Line.header?]
  case header_first => exact header_first_of_quiet quiet
  case codes_bounded =>
    intro code member
    rw [items] at member
    exact inRange code member
  case zero_count =>
    rw [items, clauses, count_itemsOfClauses, count]
    rfl
  case last_zero =>
    intro item last
    rw [items, clauses] at last
    exact getLast?_itemsOfClauses last

theorem exists_putAll?_of_arranged {header : Header} (arranged : Arranged lines header)
    (nonzero : ∀ code, .code code ∈ itemsOf lines → code ≠ 0) :
    ∃ next content, start.putAll? lines = some next ∧ next.content = .ok content ∧
      content.variableCount = header.variableCount ∧
        itemsOf lines = itemsOfClauses content.clauses := by
  rcases arranged.exists_cut with ⟨front, back, rfl, quiet, noOther⟩
  have items : itemsOf (front ++ .header header :: back) = itemsOf back :=
    itemsOf_append_header quiet header
  have taking : ∃ next, ({ start with header? := some header } : Reader).takeAll? (itemsOf back) =
      some next := by
    apply exists_takeAll? rfl
    intro code member
    rw [← items] at member
    exact ⟨nonzero code member, arranged.codes_bounded code member⟩
  rcases taking with ⟨next, taken⟩
  rcases takeAll?_spec rfl taken with ⟨kept, written, _⟩
  have all : next.written = itemsOf (front ++ .header header :: back) := written.trans items.symm
  have empty : next.pending = #[] := by
    rcases List.eq_nil_or_concat next.pending.toList with none | ⟨some, literal, found⟩
    · exact Array.toList_eq_nil_iff.mp none
    · have last : next.written.getLast? = Option.some (.code literal.code) := by
        simp [Reader.written, found]
      rw [all] at last
      cases arranged.last_zero _ last
  have clauses := written_of_pending_eq empty
  have count : header.clauseCount = next.clauses.size := by
    rw [← arranged.zero_count, ← all, clauses, count_itemsOfClauses]
    rfl
  refine ⟨next, ⟨header.variableCount, next.clauses.toList⟩, ?_, ?_, rfl, all.symm.trans clauses⟩
  · rw [putAll?_append_header rfl quiet]
    exact (putAll?_of_header rfl).mpr ⟨noOther, taken⟩
  · exact content_eq_ok_iff.mpr ⟨header, kept, empty, count, rfl⟩

end Reader

theorem WritesItems.code_ne_zero {text : List Char} {items : List Item}
    (writes : WritesItems text items) : ∀ code, .code code ∈ items → code ≠ 0 := by
  induction writes with
  | nil => simp
  | space _ _ ih => exact ih
  | zero _ ih =>
      intro code member
      rcases List.mem_cons.mp member with same | member
      · cases same
      · exact ih code member
  | code writesCode _ _ ih =>
      intro code member
      rcases List.mem_cons.mp member with same | member
      · cases same
        exact writesCode.ne_zero
      · exact ih code member

theorem WritesLine.code_ne_zero {text : List Char} {line : Line} (writes : WritesLine text line) :
    ∀ code, .code code ∈ line.items → code ≠ 0 := by
  cases writes with
  | blank => simp [Line.items]
  | comment => simp [Line.items]
  | header => simp [Line.items]
  | data writesItems => exact writesItems.code_ne_zero

theorem WritesLines.code_ne_zero {text : List Char} {lines : List Line}
    (writes : WritesLines text lines) : ∀ code, .code code ∈ itemsOf lines → code ≠ 0 := by
  induction writes with
  | last _ writesLine =>
      intro code member
      exact writesLine.code_ne_zero code (by simpa [itemsOf] using member)
  | cons _ writesLine _ ih =>
      intro code member
      rw [itemsOf_cons] at member
      rcases List.mem_append.mp member with here | later
      · exact writesLine.code_ne_zero code here
      · exact ih code later

/-! ## Accepted texts are those with arranged lines -/

theorem result_ofBytes (bytes : List UInt8) :
    (Source.ofBytes bytes).result = (Reader.start.readText (bytes.map Char.ofUInt8)).finish := by
  rw [← Reader.read_eq_readText]
  rfl

/-- What arranged lines write is accepted, with the clauses that they write. -/
theorem exists_result_of_arranged {bytes : List UInt8} {lines : List Line} {header : Header}
    (writes : WritesLines (bytes.map Char.ofUInt8) lines) (arranged : Arranged lines header) :
    ∃ content, (Source.ofBytes bytes).result = .ok content ∧
      content.variableCount = header.variableCount ∧
        itemsOf lines = itemsOfClauses content.clauses := by
  rcases Reader.exists_putAll?_of_arranged arranged writes.code_ne_zero with
    ⟨next, content, put, ended, result⟩
  refine ⟨content, ?_, result⟩
  have closed := Reader.close_readText_of_writesLines writes rfl put
  rw [result_ofBytes, Reader.finish_eq_ok_iff, Reader.Rests, closed]
  exact ⟨Reader.mode_of_putAll? put, ended⟩

/-- What is accepted is written by arranged lines. -/
theorem exists_arranged_of_result {bytes : List UInt8} {content : Content}
    (accepted : (Source.ofBytes bytes).result = .ok content) :
    ∃ lines header, WritesLines (bytes.map Char.ofUInt8) lines ∧ Arranged lines header := by
  rw [result_ofBytes, Reader.finish_eq_ok_iff] at accepted
  rcases Reader.exists_lines_of_rests _ _ rfl accepted.1 with ⟨lines, next, writes, put⟩
  have closed := Reader.close_readText_of_writesLines writes rfl put
  rcases Reader.arranged_of_putAll? put (closed ▸ accepted.2) with ⟨header, arranged, _⟩
  exact ⟨lines, header, writes, arranged⟩

theorem clauses_eq_of_result {bytes : List UInt8} {content : Content}
    (accepted : (Source.ofBytes bytes).result = .ok content) :
    (Source.ofBytes bytes).outcome.clauses = content.clauses := by
  have ended := (Reader.finish_eq_ok_iff.mp accepted).2
  rcases Reader.content_eq_ok_iff.mp ended with ⟨header, _, _, _, rfl⟩
  rw [Reader.clauses_close]
  rfl

/-- If the content of a source passes a check, then there is one. -/
theorem Source.exists_content_of_any {source : Source} {check : Content → Bool}
    (passes : source.result.toOption.any check = true) :
    ∃ content, source.result = .ok content ∧ check content = true := by
  cases accepted : source.result with
  | ok content =>
      rw [accepted] at passes
      exact ⟨content, rfl, passes⟩
  | error failure =>
      rw [accepted] at passes
      cases passes

/-- A text is accepted exactly if it writes arranged lines, and then its content are the
declared number of variables and the clauses whose items are on the lines. -/
theorem accepted_iff_arranged (bytes : List UInt8) :
    ((∃ content, (Source.ofBytes bytes).result = .ok content) ↔
      ∃ lines header, WritesLines (bytes.map Char.ofUInt8) lines ∧ Arranged lines header) ∧
    ∀ content, (Source.ofBytes bytes).result = .ok content →
      (Source.ofBytes bytes).outcome.clauses = content.clauses ∧
      ∀ lines header, WritesLines (bytes.map Char.ofUInt8) lines → Arranged lines header →
        content.variableCount = header.variableCount ∧
          itemsOf lines = itemsOfClauses content.clauses := by
  refine ⟨⟨?_, ?_⟩, ?_⟩
  · rintro ⟨content, accepted⟩
    exact exists_arranged_of_result accepted
  · rintro ⟨lines, header, writes, arranged⟩
    rcases exists_result_of_arranged writes arranged with ⟨content, accepted, _⟩
    exact ⟨content, accepted⟩
  · intro content accepted
    refine ⟨clauses_eq_of_result accepted, ?_⟩
    intro lines header writes arranged
    rcases exists_result_of_arranged writes arranged with ⟨other, acceptedOther, result⟩
    cases accepted.symm.trans acceptedOther
    exact result

/-- A clause may go on over a line end and a comment, and the next one may follow its
zero at once. -/
theorem clause_over_comment_is_arranged :
    let bytes := "p cnf 2 2\n1\nc two\n-2 00".toList.map Char.toUInt8
    ∃ content lines header, (Source.ofBytes bytes).result = .ok content ∧
      WritesLines (bytes.map Char.ofUInt8) lines ∧ Arranged lines header ∧
        itemsOf lines = [.code 1, .code (-2), .zero, .zero] := by
  intro bytes
  have items : (Source.ofBytes bytes).result.toOption.map
      (fun content => itemsOfClauses content.clauses) = some [.code 1, .code (-2), .zero, .zero] := by
    decide +kernel
  rcases Option.map_eq_some_iff.mp items with ⟨content, found, written⟩
  have accepted : (Source.ofBytes bytes).result = .ok content := by
    cases result : (Source.ofBytes bytes).result with
    | ok other =>
        rw [result] at found
        cases found
        rfl
    | error failure =>
        rw [result] at found
        cases found
  have agreement := accepted_iff_arranged bytes
  rcases agreement.1.mp ⟨content, accepted⟩ with ⟨lines, header, writes, arranged⟩
  have same := ((agreement.2 content accepted).2 lines header writes arranged).2
  exact ⟨content, lines, header, accepted, writes, arranged, same.trans written⟩

end Dimacs
end UnitPropagation
