import UnitPropagation.Proofs.Dimacs.Headers

namespace UnitPropagation
namespace Dimacs

/-!
# Reading items

A reader between two items does with a text what the items do which the text writes.
What a single item does is said by `take?`; it does not depend on the place in the
text.  If the text writes no items, or one of them is refused, the reader ends with a
failure or in the middle of a numeral.

Texts are read here up to the next line feed at most, as behind it a comment or a
header could begin.
-/

/-- Whether a line feed can only be the last character, as it is in each line of a longer text. -/
def OneLine (text : List Char) : Prop :=
  '\n' ∉ text.dropLast

theorem oneLine_of_not_mem {text : List Char} (noBreak : '\n' ∉ text) : OneLine text :=
  fun member => noBreak (List.dropLast_subset text member)

theorem oneLine_concat_break {text : List Char} (noBreak : '\n' ∉ text) :
    OneLine (text ++ ['\n']) := by
  rw [OneLine, List.dropLast_concat]
  exact noBreak

theorem OneLine.tail {c : Char} {text : List Char} (oneLine : OneLine (c :: text)) : OneLine text := by
  cases text with
  | nil => simp [OneLine]
  | cons d text =>
      intro member
      apply oneLine
      rw [List.dropLast_cons_cons]
      exact List.mem_cons_of_mem c member

theorem OneLine.of_append {front text : List Char} (oneLine : OneLine (front ++ text)) :
    OneLine text := by
  induction front with
  | nil => exact oneLine
  | cons c front ih => exact ih oneLine.tail

theorem OneLine.eq_nil_of_break {text : List Char} (oneLine : OneLine ('\n' :: text)) : text = [] := by
  cases text with
  | nil => rfl
  | cons d text =>
      apply absurd _ oneLine
      rw [List.dropLast_cons_cons]
      exact List.mem_cons_self

theorem not_isSpace_of_isDigit {c : Char} (digit : c.isDigit = true) : isSpace c = false := by
  apply Bool.eq_false_iff.mpr
  intro space
  simp only [isSpace, Bool.or_eq_true, decide_eq_true_eq] at space
  rcases space with (((rfl | rfl) | rfl) | rfl) | rfl <;> cases digit

theorem isDigit_of_isLeadingDigit {c : Char} (leading : isLeadingDigit c = true) :
    c.isDigit = true := by
  simp only [isLeadingDigit, Bool.and_eq_true] at leading
  exact leading.1

theorem digits?_of_lead {lead : Char} {digits : List Char} (leading : isLeadingDigit lead = true)
    (digit : ∀ c ∈ digits, c.isDigit = true) :
    Numeral.digits? (lead :: digits) = some (Nat.ofDigitChars 10 (lead :: digits) 0) := by
  apply digits?_eq_some_iff.mpr
  refine ⟨List.cons_ne_nil lead digits, ?_, rfl⟩
  intro c member
  rcases List.mem_cons.mp member with rfl | member
  · exact isDigit_of_isLeadingDigit leading
  · exact digit c member

theorem WritesCode.integer?_eq {text : List Char} {code : Int} (writes : WritesCode text code) :
    Numeral.integer? text = some code := by
  rcases writes with ⟨lead, digits, leading, digit, ⟨rfl, rfl⟩ | ⟨rfl, rfl⟩⟩
  · unfold Numeral.integer?
    split
    · rename_i same
      cases same
      cases leading
    · rename_i same
      cases same
      cases leading
    · rw [digits?_of_lead leading digit]
      rfl
  · rw [Numeral.integer?, digits?_of_lead leading digit]
    rfl

theorem WritesCode.isWord {text : List Char} {code : Int} (writes : WritesCode text code) :
    Text.IsWord isSpace text := by
  rcases writes with ⟨lead, digits, leading, digit, written⟩
  have solid : ∀ c ∈ lead :: digits, isSpace c = false := by
    rw [List.forall_mem_cons]
    exact ⟨not_isSpace_of_isDigit (isDigit_of_isLeadingDigit leading),
      fun c member => not_isSpace_of_isDigit (digit c member)⟩
  rcases written with ⟨rfl, _⟩ | ⟨rfl, _⟩
  · exact ⟨List.cons_ne_nil _ _, solid⟩
  · refine ⟨List.cons_ne_nil _ _, ?_⟩
    rw [List.forall_mem_cons]
    exact ⟨rfl, solid⟩

theorem WritesCode.ne_zero {text : List Char} {code : Int} (writes : WritesCode text code) :
    code ≠ 0 := by
  rcases writes with ⟨lead, digits, leading, _, coded⟩
  have positive : 0 < Nat.ofDigitChars 10 (lead :: digits) 0 := by
    have first : 0 < lead.toNat - '0'.toNat := by
      have digit := (Char.isDigit_iff_toNat.mp (isDigit_of_isLeadingDigit leading)).1
      have nonzero : lead.toNat ≠ '0'.toNat := by
        intro same
        cases Char.toNat_inj.mp same
        cases leading
      omega
    rw [Nat.ofDigitChars_cons, Nat.ofDigitChars_eq_ofDigitChars_zero]
    exact Nat.add_pos_left (Nat.mul_pos (Nat.pow_pos (by decide)) (by omega)) _
  rcases coded with ⟨_, rfl⟩ | ⟨_, rfl⟩ <;> omega

namespace Reader

def readText (reader : Reader) (text : List Char) : Reader :=
  text.foldl step reader

theorem read_eq_readText (reader : Reader) (bytes : List UInt8) :
    reader.read bytes = reader.readText (bytes.map Char.ofUInt8) := by
  rw [read, readText, List.foldl_map]

@[simp] theorem readText_nil (reader : Reader) : reader.readText [] = reader :=
  rfl

@[simp] theorem readText_cons (reader : Reader) (c : Char) (text : List Char) :
    reader.readText (c :: text) = (reader.step c).readText text :=
  rfl

@[simp] theorem readText_append (reader : Reader) (text more : List Char) :
    reader.readText (text ++ more) = (reader.readText text).readText more :=
  List.foldl_append

theorem goTo_of_mode {reader : Reader} {mode : Mode} (isMode : reader.mode = mode) :
    reader.goTo mode = reader := by
  cases reader
  cases isMode
  rfl

@[simp] theorem goTo_goTo (reader : Reader) (first second : Mode) :
    (reader.goTo first).goTo second = reader.goTo second :=
  rfl

/-- Whether a failure was met, be it a rejection of the text or a fault of the reader. -/
def Failed (reader : Reader) : Prop :=
  ∃ failure, reader.mode = .failed failure

theorem failed_reject (reader : Reader) (rejection : Rejection) : (reader.reject rejection).Failed :=
  ⟨_, rfl⟩

theorem Failed.readText {reader : Reader} (failed : reader.Failed) (text : List Char) :
    reader.readText text = reader := by
  rcases failed with ⟨failure, isFailed⟩
  induction text with
  | nil => rfl
  | cons c text ih =>
      have stays : reader.step c = reader := by rw [step, isFailed]
      rw [readText_cons, stays, ih]

theorem Failed.read {reader : Reader} (failed : reader.Failed) (bytes : List UInt8) :
    reader.read bytes = reader := by
  rw [read_eq_readText]
  exact failed.readText _

/-- Ends the line which is being read.  A header is read then, and a numeral is refused, since no
white space has followed it. -/
def close (reader : Reader) : Reader :=
  match reader.mode with
  | .failed _ => reader
  | .minus | .numeral _ => reader.reject .unterminatedClause
  | .header text => reader.endHeader text
  | .lineStart | .comment | .inClause => reader.goTo .lineStart

/-- Whether the line which is being read can end here. -/
def Rests (reader : Reader) : Prop :=
  reader.close.mode = .lineStart

theorem Failed.not_rests {reader : Reader} (failed : reader.Failed) : ¬reader.Rests := by
  rcases failed with ⟨failure, isFailed⟩
  rw [Rests, close, isFailed]
  intro impossible
  cases isFailed.symm.trans impossible

theorem not_rests_of_failed {reader : Reader} (failed : reader.Failed) (text : List Char) :
    ¬(reader.readText text).Rests := by
  rw [failed.readText]
  exact failed.not_rests

/-! ## What an item does to the reader -/

/-- The reader behind an item, if the item is not refused. -/
def take? (reader : Reader) (item : Item) : Option Reader :=
  match reader.header?, item with
  | none, _ => none
  | some _, .zero =>
    some { reader with pending := #[], clauses := reader.clauses.push reader.pending.toList }
  | some header, .code code =>
    match Literal.ofCode code with
    | .error _ => none
    | .ok literal =>
      if header.variableCount < code.natAbs then none
      else some { reader with pending := reader.pending.push literal }

def takeAll? (reader : Reader) (items : List Item) : Option Reader :=
  items.foldlM take? reader

theorem takeAll?_cons (reader : Reader) (item : Item) (items : List Item) :
    reader.takeAll? (item :: items) = (reader.take? item).bind fun next => next.takeAll? items :=
  rfl

theorem take?_zero_eq_some_iff {reader next : Reader} :
    reader.take? .zero = some next ↔ reader.header? ≠ none ∧
      next = { reader with pending := #[], clauses := reader.clauses.push reader.pending.toList } := by
  cases declared : reader.header? with
  | none => simp [take?, declared]
  | some header => simp [take?, declared, eq_comm]

theorem take?_code_eq_some_iff {reader next : Reader} {code : Int} :
    reader.take? (.code code) = some next ↔ ∃ header literal, reader.header? = some header ∧
      literal.code = code ∧ code.natAbs ≤ header.variableCount ∧
        next = { reader with pending := reader.pending.push literal } := by
  simp only [← Literal.ofCode_eq_ok_iff, ← Nat.not_lt]
  cases declared : reader.header? with
  | none => simp [take?, declared]
  | some header =>
      cases read : Literal.ofCode code with
      | error fault => simp [take?, declared, read]
      | ok literal => simp [take?, declared, read, eq_comm]

/-- What an item does is independent of the mode, and it leaves the mode alone. -/
theorem take?_goTo {reader next : Reader} {item : Item} (taken : reader.take? item = some next)
    (mode : Mode) : (reader.goTo mode).take? item = some (next.goTo mode) := by
  cases item with
  | zero =>
      rcases take?_zero_eq_some_iff.mp taken with ⟨declared, rfl⟩
      exact take?_zero_eq_some_iff.mpr ⟨declared, rfl⟩
  | code code =>
      rcases take?_code_eq_some_iff.mp taken with ⟨header, literal, declared, same, small, rfl⟩
      exact take?_code_eq_some_iff.mpr ⟨header, literal, declared, same, small, rfl⟩

theorem mode_of_take? {reader next : Reader} {item : Item} (taken : reader.take? item = some next) :
    next.mode = reader.mode := by
  have moved := take?_goTo taken reader.mode
  rw [goTo_of_mode rfl, taken, Option.some.injEq] at moved
  rw [moved]
  rfl

theorem takeAll?_goTo {reader next : Reader} {items : List Item}
    (taken : reader.takeAll? items = some next) (mode : Mode) :
    (reader.goTo mode).takeAll? items = some (next.goTo mode) := by
  induction items generalizing reader with
  | nil =>
      cases taken
      rfl
  | cons item items ih =>
      rw [takeAll?_cons, Option.bind_eq_some_iff] at taken
      rcases taken with ⟨between, first, others⟩
      rw [takeAll?_cons, take?_goTo first, Option.bind_some]
      exact ih others

theorem endClause_cases (reader : Reader) :
    (∃ next, reader.take? .zero = some next ∧ reader.endClause = next.goTo .inClause) ∨
      (reader.take? .zero = none ∧ reader.endClause.Failed) := by
  unfold endClause
  cases declared : reader.header? with
  | none => exact Or.inr ⟨by simp [take?, declared], failed_reject reader _⟩
  | some header =>
      refine Or.inl ⟨_, take?_zero_eq_some_iff.mpr ⟨?_, rfl⟩, ?_⟩
      · rw [declared]
        exact Option.some_ne_none header
      · simp [goTo, declared]

/-- The codes of literals are those which do not take more than 31 bits. -/
theorem int32?_of_bound {text : List Char} {code : Int} (writes : WritesCode text code)
    (bound : code.natAbs < 2147483648) : Numeral.int32? text = some code := by
  rw [Numeral.int32?, writes.integer?_eq]
  apply Option.filter_eq_some_iff.mpr
  simp only [Bool.and_eq_true, decide_eq_true_eq, true_and]
  omega

theorem int32?_of_large {text : List Char} {code : Int} (writes : WritesCode text code)
    (large : 2147483648 ≤ code.natAbs) :
    Numeral.int32? text = none ∨ Numeral.int32? text = some (-2147483648) := by
  rw [Numeral.int32?, writes.integer?_eq]
  by_cases lowest : code = -2147483648
  · exact Or.inr (by rw [lowest]; rfl)
  · left
    apply Option.filter_eq_none_iff.mpr
    simp only [Option.some.injEq, Bool.and_eq_true, decide_eq_true_eq]
    rintro _ rfl
    omega

/-- A numeral that has ended is read as its code, or refused. -/
theorem endNumeral_cases (reader : Reader) {text : List Char} {code : Int}
    (writes : WritesCode text code) (mode : Mode) :
    (∃ next, reader.take? (.code code) = some next ∧
      reader.endNumeral text.toArray mode = next.goTo mode) ∨
      (reader.take? (.code code) = none ∧ (reader.endNumeral text.toArray mode).Failed) := by
  have refused : (∀ header, ∀ literal : Literal, reader.header? = some header →
      literal.code = code → header.variableCount < code.natAbs) →
        reader.take? (.code code) = none := by
    intro large
    apply Option.eq_none_iff_forall_ne_some.mpr
    intro next taken
    rcases take?_code_eq_some_iff.mp taken with ⟨header, literal, declared, same, small, _⟩
    exact absurd small (Nat.not_le_of_lt (large header literal declared same))
  cases declared : reader.header? with
  | none =>
      refine Or.inr ⟨refused (by simp [declared]), ?_⟩
      rw [endNumeral, declared]
      exact failed_reject reader _
  | some header =>
      by_cases bound : code.natAbs < 2147483648
      · have notLowest : code ≠ -2147483648 := by omega
        simp only [endNumeral, declared, int32?_of_bound writes bound, if_neg notLowest]
        by_cases large : header.variableCount < code.natAbs
        · rw [if_pos large]
          refine Or.inr ⟨refused ?_, failed_reject reader _⟩
          intro other _ same _
          cases declared.symm.trans same
          exact large
        · rw [if_neg large]
          cases read : Literal.ofCode code with
          | error fault => exact Or.inr ⟨by simp [take?, declared, read], ⟨_, rfl⟩⟩
          | ok literal =>
              refine Or.inl ⟨{ reader with pending := reader.pending.push literal }, ?_, ?_⟩
              · exact take?_code_eq_some_iff.mpr ⟨header, literal, declared,
                  Literal.ofCode_eq_ok_iff.mp read, Nat.le_of_not_lt large, rfl⟩
              · simp [goTo, declared]
      · refine Or.inr ⟨refused ?_, ?_⟩
        · intro _ literal _ same
          exact absurd (same ▸ literal.natAbs_code_lt) bound
        · rcases int32?_of_large writes (Nat.le_of_not_lt bound) with none | lowest
          · simp only [endNumeral, declared, none]
            exact failed_reject reader _
          · simp only [endNumeral, declared, lowest, if_true]
            exact failed_reject reader _

/-! ## From one item to the next -/

/-- The mode between two items, behind some characters of a line.  It is the start of a line again
behind a line feed. -/
def restMode (text : List Char) : Mode :=
  if text.getLast? = some '\n' then .lineStart else .inClause

theorem restMode_append (front : List Char) (c : Char) (text : List Char) :
    restMode (front ++ c :: text) = restMode (c :: text) := by
  rw [restMode, restMode, List.getLast?_append, List.getLast?_cons, Option.some_or]

theorem restMode_cons {c : Char} (solid : c ≠ '\n') (text : List Char) :
    restMode (c :: text) = restMode text := by
  cases text with
  | nil => simp [restMode, solid]
  | cons d text => exact restMode_append [c] d text

theorem endNumeral_goTo (reader : Reader) (mode next : Mode) (text : Array Char) :
    (reader.goTo mode).endNumeral text next = reader.endNumeral text next :=
  rfl

theorem beginItem_goTo (reader : Reader) (mode : Mode) (c : Char) :
    (reader.goTo mode).beginItem c = reader.beginItem c :=
  rfl

variable {reader next : Reader}

theorem step_space {c : Char} (between : reader.mode = .inClause) (space : isSpace c = true) :
    reader.step c = reader.goTo (restMode [c]) := by
  by_cases ends : c = '\n'
  · simp [step, between, restMode, ends]
  · simp [step, between, restMode, ends, space, goTo_of_mode between]

theorem step_solid {c : Char} (between : reader.mode = .inClause) (solid : isSpace c = false) :
    reader.step c = reader.beginItem c := by
  have inside : c ≠ '\n' := by
    rintro rfl
    cases solid
  simp [step, between, inside, solid]

theorem beginItem_of_isLeadingDigit {c : Char} (leading : isLeadingDigit c = true) :
    reader.beginItem c = reader.goTo (.numeral [c].toArray) := by
  have nonzero : c ≠ '0' := by
    rintro rfl
    cases leading
  rw [beginItem, if_neg nonzero, if_pos leading]

theorem step_minus {c : Char} (leading : isLeadingDigit c = true) :
    (reader.goTo .minus).step c = reader.goTo (.numeral ['-', c].toArray) := by
  simp [step, goTo, leading]

theorem readText_digits (text : List Char) {digits : List Char}
    (digit : ∀ c ∈ digits, c.isDigit = true) :
    (reader.goTo (.numeral text.toArray)).readText digits =
      reader.goTo (.numeral (text ++ digits).toArray) := by
  induction digits generalizing text with
  | nil => rw [List.append_nil, readText_nil]
  | cons c digits ih =>
      have isDigit := digit c List.mem_cons_self
      have solid := not_isSpace_of_isDigit isDigit
      have inside : c ≠ '\n' := by
        rintro rfl
        cases isDigit
      have step : (reader.goTo (.numeral text.toArray)).step c =
          reader.goTo (.numeral (text ++ [c]).toArray) := by
        simp [step, goTo, inside, solid, isDigit]
      rw [readText_cons, step, ih (text ++ [c]) fun d member => digit d (List.mem_cons_of_mem c member),
        List.append_assoc, List.singleton_append]

theorem readText_numeral (between : reader.mode = .inClause) {numeral : List Char} {code : Int}
    (writes : WritesCode numeral code) :
    reader.readText numeral = reader.goTo (.numeral numeral.toArray) := by
  rcases writes with ⟨lead, digits, leading, digit, ⟨rfl, _⟩ | ⟨rfl, _⟩⟩
  · have solid := not_isSpace_of_isDigit (isDigit_of_isLeadingDigit leading)
    rw [readText_cons, step_solid between solid, beginItem_of_isLeadingDigit leading,
      readText_digits [lead] digit]
    rfl
  · have minus : reader.beginItem '-' = reader.goTo .minus := rfl
    rw [readText_cons, step_solid between rfl, minus, readText_cons, step_minus leading,
      readText_digits ['-', lead] digit]
    rfl

theorem step_space_of_numeral (text : List Char) {c : Char} (space : isSpace c = true) :
    (reader.goTo (.numeral text.toArray)).step c =
      reader.endNumeral text.toArray (restMode [c]) := by
  by_cases ends : c = '\n'
  · simp only [step, goTo, ends, if_true]
    exact endNumeral_goTo reader _ _ _
  · simp only [step, goTo, ends, if_false, space, if_true]
    rw [restMode_cons ends]
    exact endNumeral_goTo reader _ _ _

theorem items_eq_nil {text : List Char} {items : List Item} (writes : WritesItems text items)
    (empty : text = []) : items = [] := by
  cases writes with
  | nil => rfl
  | space => cases empty
  | zero => cases empty
  | code => simp at empty

/-- A reader between items takes the items which the text writes. -/
theorem readText_of_writesItems {text : List Char} {items : List Item}
    (writes : WritesItems text items) : ∀ {reader next : Reader}, OneLine text →
      reader.mode = .inClause → reader.takeAll? items = some next →
        reader.readText text = next.goTo (restMode text) := by
  induction writes with
  | nil =>
      intro reader next _ between taken
      cases taken
      exact (goTo_of_mode between).symm
  | @space c text items space writes ih =>
      intro reader next oneLine between taken
      rw [readText_cons, step_space between space]
      by_cases ends : c = '\n'
      · subst ends
        cases oneLine.eq_nil_of_break
        cases items_eq_nil writes rfl
        cases taken
        rfl
      · rw [restMode_cons ends, restMode_cons ends]
        have same : reader.goTo (restMode []) = reader := goTo_of_mode between
        rw [same]
        exact ih oneLine.tail between taken
  | @zero text items _ ih =>
      intro reader next oneLine between taken
      rw [takeAll?_cons, Option.bind_eq_some_iff] at taken
      rcases taken with ⟨first, zeroTaken, others⟩
      rw [readText_cons, step_solid between rfl, restMode_cons (by decide)]
      rcases reader.endClause_cases with ⟨other, otherTaken, ended⟩ | ⟨refused, _⟩
      · cases zeroTaken.symm.trans otherTaken
        have mode := (mode_of_take? zeroTaken).trans between
        have begun : reader.beginItem '0' = first := ended.trans (goTo_of_mode mode)
        rw [begun]
        exact ih oneLine.tail mode others
      · cases zeroTaken.symm.trans refused
  | @code numeral code c text items writesCode space _ ih =>
      intro reader next oneLine between taken
      rw [takeAll?_cons, Option.bind_eq_some_iff] at taken
      rcases taken with ⟨first, codeTaken, others⟩
      rw [readText_append, readText_numeral between writesCode, readText_cons,
        step_space_of_numeral numeral space, restMode_append]
      rcases reader.endNumeral_cases writesCode (restMode [c]) with
        ⟨other, otherTaken, ended⟩ | ⟨refused, _⟩
      · cases codeTaken.symm.trans otherTaken
        have mode := (mode_of_take? codeTaken).trans between
        rw [ended, ← step_space mode space]
        exact ih oneLine.of_append mode others
      · cases codeTaken.symm.trans refused

/-- A numeral that is followed by white space was read, or the line cannot end. -/
theorem exists_end_of_numeral {front text : List Char}
    (rests : ((reader.goTo (.numeral front.toArray)).readText text).Rests) :
    ∃ digits c rest, text = digits ++ c :: rest ∧ (∀ d ∈ digits, d.isDigit = true) ∧
      isSpace c = true ∧
        ((reader.endNumeral (front ++ digits).toArray (restMode [c])).readText rest).Rests := by
  rcases Text.exists_run Char.isDigit text with ⟨digits, rest, rfl, digit, notDigit⟩
  rw [readText_append, readText_digits front digit] at rests
  cases rest with
  | nil => cases rests
  | cons c rest =>
      rw [readText_cons] at rests
      cases space : isSpace c with
      | true =>
          rw [step_space_of_numeral _ space] at rests
          exact ⟨digits, c, rest, rfl, digit, space, rests⟩
      | false =>
          have inside : c ≠ '\n' := by
            rintro rfl
            cases space
          have rejected : ((reader.goTo (.numeral (front ++ digits).toArray)).step c).Failed := by
            simp only [step, goTo, inside, if_false, space, notDigit c rfl, Bool.false_eq_true]
            exact failed_reject _ _
          exact absurd rests (not_rests_of_failed rejected rest)

/-- Whether a numeral can begin like this: with its first digit, and the sign before it. -/
def OpensNumeral (front : List Char) : Prop :=
  ∃ lead, isLeadingDigit lead = true ∧ (front = [lead] ∨ front = ['-', lead])

theorem OpensNumeral.length_pos {front : List Char} (opens : OpensNumeral front) :
    0 < front.length := by
  rcases opens with ⟨lead, _, rfl | rfl⟩ <;> simp

theorem OpensNumeral.exists_code {front digits : List Char} (opens : OpensNumeral front)
    (digit : ∀ d ∈ digits, d.isDigit = true) : ∃ code, WritesCode (front ++ digits) code := by
  rcases opens with ⟨lead, leading, rfl | rfl⟩
  · exact ⟨_, lead, digits, leading, digit, Or.inl ⟨rfl, rfl⟩⟩
  · exact ⟨_, lead, digits, leading, digit, Or.inr ⟨rfl, rfl⟩⟩

/-- If the line can end behind an item that begins here, the item is a zero which is
not refused, or a numeral. -/
theorem beginItem_cases {c : Char} {text : List Char}
    (rests : ((reader.beginItem c).readText text).Rests) :
    (c = '0' ∧ ∃ next, reader.take? .zero = some next ∧
      reader.beginItem c = next.goTo .inClause) ∨
    ∃ front rest, c :: text = front ++ rest ∧ OpensNumeral front ∧
      ((reader.goTo (.numeral front.toArray)).readText rest).Rests := by
  by_cases zero : c = '0'
  · subst zero
    rcases reader.endClause_cases with ⟨next, taken, ended⟩ | ⟨_, failed⟩
    · exact Or.inl ⟨rfl, next, taken, ended⟩
    · exact absurd rests (not_rests_of_failed failed text)
  · right
    cases leading : isLeadingDigit c with
    | true =>
        rw [beginItem_of_isLeadingDigit leading] at rests
        exact ⟨[c], text, rfl, ⟨c, leading, Or.inl rfl⟩, rests⟩
    | false =>
        by_cases minus : c = '-'
        · subst minus
          have begun : reader.beginItem '-' = reader.goTo .minus := rfl
          rw [begun] at rests
          cases text with
          | nil => cases rests
          | cons d text =>
              rw [readText_cons] at rests
              cases leads : isLeadingDigit d with
              | true =>
                  rw [step_minus leads] at rests
                  exact ⟨['-', d], text, rfl, ⟨d, leads, Or.inr rfl⟩, rests⟩
              | false =>
                  have rejected : ((reader.goTo .minus).step d).Failed := by
                    simp only [step, goTo, leads, Bool.false_eq_true, if_false]
                    exact failed_reject _ _
                  exact absurd rests (not_rests_of_failed rejected text)
        · have rejected : (reader.beginItem c).Failed := by
            simp only [beginItem, zero, if_false, leading, minus, Bool.false_eq_true]
            exact failed_reject reader _
          exact absurd rests (not_rests_of_failed rejected text)

/-- What has to be shown of a text which is read between items. -/
def Itemized (reader : Reader) (text : List Char) : Prop :=
  ∃ items next, WritesItems text items ∧ reader.takeAll? items = some next

theorem Itemized.cons {item : Item} {text more : List Char}
    (taken : reader.take? item = some next) (itemized : next.Itemized text)
    (writes : ∀ items, WritesItems text items → WritesItems more (item :: items)) :
    reader.Itemized more := by
  rcases itemized with ⟨items, last, writesItems, others⟩
  refine ⟨item :: items, last, writes items writesItems, ?_⟩
  rw [takeAll?_cons, taken]
  exact others

/-- If the line can end behind a text that is read between items, the text writes
items, none of which is refused. -/
theorem itemized_of_rests : ∀ text, OneLine text → ∀ reader : Reader,
    reader.mode = .inClause → (reader.readText text).Rests → reader.Itemized text
  | [], _, reader, _, _ => ⟨[], reader, .nil, rfl⟩
  | c :: text, oneLine, reader, between, rests => by
      have shorter : ∀ rest, rest.length ≤ text.length → OneLine rest → ∀ next : Reader,
          next.mode = .inClause → (next.readText rest).Rests → next.Itemized rest := by
        intro rest short oneLine next between rests
        exact itemized_of_rests rest oneLine next between rests
      rw [readText_cons] at rests
      cases space : isSpace c with
      | true =>
          rw [step_space between space] at rests
          by_cases ends : c = '\n'
          · subst ends
            cases oneLine.eq_nil_of_break
            exact ⟨[], reader, .space space .nil, rfl⟩
          · have same : reader.goTo (restMode []) = reader := goTo_of_mode between
            rw [restMode_cons ends, same] at rests
            rcases shorter text (Nat.le_refl _) oneLine.tail reader between rests with
              ⟨items, next, writes, taken⟩
            exact ⟨items, next, .space space writes, taken⟩
      | false =>
          rw [step_solid between space] at rests
          rcases beginItem_cases rests with
            ⟨rfl, next, taken, begun⟩ | ⟨front, tail, cut, opens, restsTail⟩
          · have mode := (mode_of_take? taken).trans between
            rw [begun, goTo_of_mode mode] at rests
            have itemized := shorter text (Nat.le_refl _) oneLine.tail next mode rests
            exact .cons taken itemized fun _ => .zero
          · rcases exists_end_of_numeral restsTail with
              ⟨digits, d, rest, rfl, digit, spaced, restsBehind⟩
            rcases opens.exists_code digit with ⟨code, writes⟩
            rw [cut, ← List.append_assoc] at oneLine ⊢
            rcases reader.endNumeral_cases writes (restMode [d]) with
              ⟨next, taken, ended⟩ | ⟨_, failed⟩
            · have mode := (mode_of_take? taken).trans between
              rw [ended, ← step_space mode spaced, ← readText_cons] at restsBehind
              have short : (d :: rest).length ≤ text.length := by
                have lengths := congrArg List.length cut
                simp only [List.length_append, List.length_cons] at lengths ⊢
                have positive := opens.length_pos
                omega
              have itemized := shorter (d :: rest) short oneLine.of_append next mode restsBehind
              exact .cons taken itemized fun _ => .code writes spaced
            · exact absurd restsBehind (not_rests_of_failed failed rest)
termination_by text => text.length
decreasing_by
  rw [List.length_cons]
  exact Nat.lt_succ_of_le short

end Reader
end Dimacs
end UnitPropagation
