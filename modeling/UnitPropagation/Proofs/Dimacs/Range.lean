import UnitPropagation.Dimacs.Instance
import UnitPropagation.Proofs.Dimacs.Lines
import UnitPropagation.Proofs.Dimacs.Rejections

namespace UnitPropagation
namespace Dimacs

/-!
# The range of literals

A numeral that ends where an item may stand is a literal exactly if its number has at most
31 bits and its variable is declared.  A longer numeral is quoted in the rejection, and it
makes no difference whether it is positive or negative, although there is one more negative
number than there are positive ones in 32 bits.  A number of at most 31 bits is rejected
together with the number of declared variables, if this is smaller.

Assumed literals are given as numbers.  They have a check of their own, and it agrees with
what the reader does with the decimal numeral of the same number.
-/

theorem exists_lead_of_toDigits {number : Nat} (positive : 0 < number) :
    ∃ lead digits, Nat.toDigits 10 number = lead :: digits ∧ isLeadingDigit lead = true := by
  induction number using Nat.strongRecOn with
  | ind number ih =>
      by_cases small : number < 10
      · have leading : ∀ digit < 10, 0 < digit → isLeadingDigit digit.digitChar = true := by decide
        exact ⟨number.digitChar, [], Nat.toDigits_of_lt_base small, leading number small positive⟩
      · rcases ih (number / 10) (by omega) (by omega) with ⟨lead, digits, first, leading⟩
        refine ⟨lead, digits ++ [(number % 10).digitChar], ?_, leading⟩
        rw [Nat.toDigits_of_base_le (by decide) (Nat.le_of_not_lt small), first, List.cons_append]

theorem writesCode_repr {code : Int} (nonzero : code ≠ 0) : WritesCode code.repr.toList code := by
  rcases exists_lead_of_toDigits (Int.natAbs_pos.mpr nonzero) with ⟨lead, digits, first, leading⟩
  have digit : ∀ c ∈ lead :: digits, c.isDigit = true := fun c member =>
    Nat.isDigit_of_mem_toDigits (by decide) (by decide) (first ▸ member)
  have value : Nat.ofDigitChars 10 (lead :: digits) 0 = code.natAbs := by
    rw [← first]
    exact Nat.ofDigitChars_ten_toDigits
  refine ⟨lead, digits, leading, fun c member => digit c (List.mem_cons_of_mem lead member), ?_⟩
  rw [value, Int.repr_eq_if]
  by_cases sign : 0 ≤ code
  · have same : code.toNat = code.natAbs := by omega
    rw [if_pos sign, same, Nat.toList_repr, first]
    exact Or.inl ⟨rfl, by omega⟩
  · have same : (-code).toNat = code.natAbs := by omega
    rw [if_neg sign, same, String.toList_append, Nat.toList_repr, first]
    exact Or.inr ⟨rfl, by omega⟩

/-- A natural number of at most 64 bits is written by its decimal text. -/
theorem writesCount_repr {count : Nat} (small : count < 18446744073709551616) :
    WritesCount count.repr.toList count := by
  refine ⟨Or.inl ⟨?_, isDigit_of_mem_repr, ?_⟩, small⟩
  · rw [Nat.toList_repr]
    exact Nat.toDigits_ne_nil
  · rw [Nat.toList_repr]
    exact Nat.ofDigitChars_ten_toDigits.symm

namespace Reader

variable {reader : Reader}

/-- Whether an item may begin at the place which the reader has come to. -/
def AwaitsItem (reader : Reader) : Prop :=
  reader.mode = .lineStart ∨ reader.mode = .inClause

instance (reader : Reader) : Decidable reader.AwaitsItem :=
  inferInstanceAs (Decidable (_ ∨ _))

/-- The reader behind a literal which has ended with the given white space. -/
def behindLiteral (reader : Reader) (literal : Literal) (space : Char) : Reader :=
  { reader with
    pending := reader.pending.push literal
    mode := if space = '\n' then .lineStart else .inClause }

theorem mode_behindLiteral_ne (reader : Reader) (literal : Literal) (space : Char)
    (failure : Failure) : (reader.behindLiteral literal space).mode ≠ .failed failure := by
  unfold behindLiteral
  split <;> simp

/-- What begins like a numeral is read alike at the start of a line and between items. -/
theorem step_eq_of_awaitsItem (awaits : reader.AwaitsItem) {c : Char} (solid : isSpace c = false)
    (noHeader : c ≠ 'p') (noComment : c ≠ 'c') :
    reader.step c = (reader.goTo .inClause).step c := by
  have begun : (reader.goTo .inClause).step c = reader.beginItem c := step_solid rfl solid
  rw [begun]
  rcases awaits with atStart | between
  · simp only [step, atStart, solid, noHeader, noComment, Bool.false_eq_true, if_false]
  · exact step_solid between solid

theorem readText_numeral_of_awaitsItem (awaits : reader.AwaitsItem) {numeral : List Char}
    {code : Int} (writes : WritesCode numeral code) :
    reader.readText numeral = reader.goTo (.numeral numeral.toArray) := by
  have between : (reader.goTo .inClause).readText numeral = reader.goTo (.numeral numeral.toArray) :=
    readText_numeral rfl writes
  rw [← between]
  rcases writes with ⟨lead, digits, leading, _, ⟨rfl, _⟩ | ⟨rfl, _⟩⟩
  · have solid := not_isSpace_of_isDigit (isDigit_of_isLeadingDigit leading)
    have noHeader : lead ≠ 'p' := by
      rintro rfl
      cases leading
    have noComment : lead ≠ 'c' := by
      rintro rfl
      cases leading
    rw [readText_cons reader, readText_cons (reader.goTo .inClause),
      step_eq_of_awaitsItem awaits solid noHeader noComment]
  · have sameStep : reader.step '-' = (reader.goTo .inClause).step '-' :=
      step_eq_of_awaitsItem awaits rfl (by decide) (by decide)
    rw [readText_cons reader, readText_cons (reader.goTo .inClause), sameStep]

theorem read_numeral (awaits : reader.AwaitsItem) {numeral : List UInt8} {code : Int} {space : UInt8}
    (writes : WritesCode (numeral.map Char.ofUInt8) code)
    (isWhite : isSpace (Char.ofUInt8 space) = true) :
    reader.read (numeral ++ [space]) = reader.endNumeral (numeral.map Char.ofUInt8).toArray
      (restMode [Char.ofUInt8 space]) := by
  rw [read_eq_readText, List.map_append, readText_append,
    readText_numeral_of_awaitsItem awaits writes]
  exact step_space_of_numeral _ isWhite

/-! ## What becomes of a numeral -/

variable {header : Header} {text : List Char} {code : Int} {next : Mode}

theorem endNumeral_of_large (declared : reader.header? = some header)
    (writes : WritesCode text code) (large : 2147483648 ≤ code.natAbs) :
    reader.endNumeral text.toArray next = reader.reject (.invalidLiteral (String.ofList text)) := by
  rcases int32?_of_large writes large with none | lowest
  · simp only [endNumeral, declared, none]
  · simp only [endNumeral, declared, lowest, if_true]

theorem endNumeral_of_undeclared (declared : reader.header? = some header)
    (writes : WritesCode text code) (small : code.natAbs < 2147483648)
    (undeclared : header.variableCount < code.natAbs) :
    reader.endNumeral text.toArray next =
      reader.reject (.variableOutOfRange code header.variableCount) := by
  have notLowest : code ≠ -2147483648 := by omega
  simp only [endNumeral, declared, int32?_of_bound writes small, if_neg notLowest,
    if_pos undeclared]

theorem endNumeral_of_literal (declared : reader.header? = some header) {literal : Literal}
    (writes : WritesCode text literal.code) (bound : literal.code.natAbs ≤ header.variableCount) :
    reader.endNumeral text.toArray next =
      { reader with pending := reader.pending.push literal, mode := next } := by
  have small := literal.natAbs_code_lt
  have notLowest : literal.code ≠ -2147483648 := by omega
  simp only [endNumeral, declared, int32?_of_bound writes small, if_neg notLowest,
    if_neg (Nat.not_lt_of_le bound), Literal.ofCode_code]

end Reader

/-- Whether every text that begins with the bytes is rejected for the given reason, in whatever
pieces it comes, and whether or not its source breaks. -/
def Rejects (bytes : List UInt8) (rejection : Rejection) : Prop :=
  ∀ source : Source, bytes <+: source.bytes → source.result = .error (.rejected rejection)

/-- Whatever follows, a text is rejected for what was found in front of it, and only for that. -/
theorem rejects_iff {bytes : List UInt8} {rejection : Rejection}
    (readable : rejection ≠ .unreadable) :
    Rejects bytes rejection ↔ (Reader.start.read bytes).mode = .failed (.rejected rejection) := by
  constructor
  · intro rejects
    have broken := rejects ⟨[bytes], true⟩ (by simp [Source.bytes])
    simp only [Source.result, Source.read, if_true, List.foldl_cons, List.foldl_nil] at broken
    split at broken
    · rename_i failed
      cases broken
      exact failed
    · cases broken
      exact absurd rfl readable
  · rintro failed source ⟨more, same⟩
    have read : source.read = Reader.start.read bytes := by
      have ended : (Reader.start.read bytes).Failed := ⟨_, failed⟩
      rw [source.read_eq, ← same, Reader.read_append, ended.read]
    rw [Source.result, read, failed]
    simp only [Reader.finish, failed, ite_self]

/-- Whether every character of the text stands for a byte. -/
def Narrow (text : List Char) : Prop :=
  ∀ c ∈ text, c.toNat < 256

instance (text : List Char) : Decidable (Narrow text) :=
  List.decidableBAll _ text

theorem ofUInt8_toUInt8 {c : Char} (narrow : c.toNat < 256) : Char.ofUInt8 c.toUInt8 = c := by
  apply Char.toNat_inj.mp
  exact Nat.mod_eq_of_lt narrow

theorem Narrow.map_ofUInt8 {text : List Char} (narrow : Narrow text) :
    (text.map Char.toUInt8).map Char.ofUInt8 = text := by
  have same : text.map (Char.ofUInt8 ∘ Char.toUInt8) = text.map id :=
    List.map_congr_left fun c member => ofUInt8_toUInt8 (narrow c member)
  rw [List.map_map, same, List.map_id]

theorem Narrow.append {text more : List Char} (first : Narrow text) (second : Narrow more) :
    Narrow (text ++ more) :=
  List.forall_mem_append.mpr ⟨first, second⟩

theorem narrow_of_isDigit {text : List Char} (digit : ∀ c ∈ text, c.isDigit = true) :
    Narrow text := by
  intro c member
  have last := (Char.isDigit_iff_toNat.mp (digit c member)).2
  exact Nat.lt_of_le_of_lt last (by decide)

theorem WritesCode.narrow {text : List Char} {code : Int} (writes : WritesCode text code) :
    Narrow text := by
  rcases writes with ⟨lead, digits, leading, digit, written⟩
  have narrow : Narrow (lead :: digits) := narrow_of_isDigit
    (List.forall_mem_cons.mpr ⟨isDigit_of_isLeadingDigit leading, digit⟩)
  rcases written with ⟨rfl, _⟩ | ⟨rfl, _⟩
  · exact narrow
  · exact List.forall_mem_cons.mpr ⟨by decide, narrow⟩

/-- A number other than zero is written by the bytes of its decimal text. -/
theorem writesCode_decimal {code : Int} (nonzero : code ≠ 0) :
    WritesCode (((toString code).toList.map Char.toUInt8).map Char.ofUInt8) code := by
  have writes := writesCode_repr nonzero
  exact writes.narrow.map_ofUInt8.symm ▸ writes

/-- Any number of variables of at most 64 bits can be declared. -/
theorem exists_declaration {variableCount : Nat} (small : variableCount < 18446744073709551616) :
    ∃ front, (Reader.start.read front).AwaitsItem ∧
      (Reader.start.read front).header? = some ⟨variableCount, 0⟩ := by
  have count := writesCount_repr small
  let text := Header.mark ++ variableCount.repr.toList ++ [' ', '0']
  have zero : WritesCount ['0'] 0 := writesCount_repr (by decide : 0 < 18446744073709551616)
  have writes : WritesLine (text ++ ['\n']) (.header ⟨variableCount, 0⟩) := by
    refine @WritesLine.header [] _ _ (by simp) ?_
    exact ⟨[], variableCount.repr.toList, [' '], ['0'], ['\n'], by simp [Header.mark],
      List.all_eq_true.mp (by decide), by simp, count, zero⟩
  have noBreak : '\n' ∉ text := by
    simp only [text, List.mem_append, not_or]
    refine ⟨⟨by decide, ?_⟩, by decide⟩
    intro member
    cases isDigit_of_mem_repr _ member
  have narrow : Narrow (text ++ ['\n']) := by
    have digits : Narrow variableCount.repr.toList := narrow_of_isDigit isDigit_of_mem_repr
    exact .append (.append (.append (by decide) digits) (by decide)) (by decide)
  have closed := Reader.close_readText_of_writesLine writes (oneLine_concat_break noBreak)
    (rfl : Reader.start.mode = .lineStart) (Reader.put?_header_eq_some_iff.mpr ⟨rfl, rfl⟩)
  rw [Reader.readText_append, Reader.readText_cons, Reader.readText_nil,
    (Reader.ended_step_break _).close] at closed
  refine ⟨(text ++ ['\n']).map Char.toUInt8, ?_⟩
  rw [Reader.read_eq_readText, narrow.map_ofUInt8, Reader.readText_append, Reader.readText_cons,
    Reader.readText_nil, closed]
  exact ⟨Or.inl rfl, rfl⟩

/-! ## Numerals in a text and assumptions decide alike -/

/-- What is decided about numerals that end with the given white space behind some bytes, and
about assumptions, under the declared number of variables. -/
structure DecidesRange (front : List UInt8) (header : Header) (space : UInt8) : Prop where
  invalid_iff : ∀ numeral code, WritesCode (numeral.map Char.ofUInt8) code →
    (Rejects (front ++ numeral ++ [space])
      (.invalidLiteral (String.ofList (numeral.map Char.ofUInt8))) ↔ 2147483648 ≤ code.natAbs)
  undeclared_iff : ∀ numeral code, WritesCode (numeral.map Char.ofUInt8) code →
    (Rejects (front ++ numeral ++ [space]) (.variableOutOfRange code header.variableCount) ↔
      code.natAbs < 2147483648 ∧ header.variableCount < code.natAbs)
  literal_iff : ∀ numeral code, WritesCode (numeral.map Char.ofUInt8) code →
    ((∃ literal, literal.code = code ∧ Reader.start.read (front ++ numeral ++ [space]) =
      (Reader.start.read front).behindLiteral literal (Char.ofUInt8 space)) ↔
        code.natAbs < 2147483648 ∧ code.natAbs ≤ header.variableCount)
  assumption_iff : ∀ code literal, assumption? header.variableCount code = some literal ↔
    literal.code = code ∧ code ≠ 0 ∧
      Reader.start.read (front ++ (toString code).toList.map Char.toUInt8 ++ [space]) =
        (Reader.start.read front).behindLiteral literal (Char.ofUInt8 space)

section

variable {front numeral : List UInt8} {space : UInt8} {header : Header} {code : Int}
  (awaits : (Reader.start.read front).AwaitsItem)
  (declared : (Reader.start.read front).header? = some header)
  (isWhite : isSpace (Char.ofUInt8 space) = true)

include awaits declared isWhite

/-- A numeral is too long, or its variable is not declared, or it is a literal. -/
theorem numeral_cases (writes : WritesCode (numeral.map Char.ofUInt8) code) :
    (2147483648 ≤ code.natAbs ∧ (Reader.start.read (front ++ numeral ++ [space])).mode =
      .failed (.rejected (.invalidLiteral (String.ofList (numeral.map Char.ofUInt8))))) ∨
    ((code.natAbs < 2147483648 ∧ header.variableCount < code.natAbs) ∧
      (Reader.start.read (front ++ numeral ++ [space])).mode =
        .failed (.rejected (.variableOutOfRange code header.variableCount))) ∨
    ((code.natAbs < 2147483648 ∧ code.natAbs ≤ header.variableCount) ∧
      ∃ literal, literal.code = code ∧ Reader.start.read (front ++ numeral ++ [space]) =
        (Reader.start.read front).behindLiteral literal (Char.ofUInt8 space)) := by
  rw [List.append_assoc, Reader.read_append, Reader.read_numeral awaits writes isWhite]
  by_cases small : code.natAbs < 2147483648
  · by_cases bound : code.natAbs ≤ header.variableCount
    · let literal : Literal := ⟨code, writes.ne_zero, small⟩
      refine Or.inr (Or.inr ⟨⟨small, bound⟩, literal, rfl, ?_⟩)
      have isCode : WritesCode (numeral.map Char.ofUInt8) literal.code := writes
      rw [Reader.endNumeral_of_literal declared isCode bound]
      simp [Reader.behindLiteral, Reader.restMode]
    · have undeclared := Nat.lt_of_not_le bound
      refine Or.inr (Or.inl ⟨⟨small, undeclared⟩, ?_⟩)
      rw [Reader.endNumeral_of_undeclared declared writes small undeclared]
      rfl
  · have large := Nat.le_of_not_lt small
    refine Or.inl ⟨large, ?_⟩
    rw [Reader.endNumeral_of_large declared writes large]
    rfl

theorem literal_iff (writes : WritesCode (numeral.map Char.ofUInt8) code) :
    (∃ literal, literal.code = code ∧ Reader.start.read (front ++ numeral ++ [space]) =
      (Reader.start.read front).behindLiteral literal (Char.ofUInt8 space)) ↔
        code.natAbs < 2147483648 ∧ code.natAbs ≤ header.variableCount := by
  have notFailed : ∀ {failure},
      (Reader.start.read (front ++ numeral ++ [space])).mode = .failed failure →
        ¬∃ literal, literal.code = code ∧ Reader.start.read (front ++ numeral ++ [space]) =
          (Reader.start.read front).behindLiteral literal (Char.ofUInt8 space) := by
    rintro failure failed ⟨literal, _, read⟩
    rw [read] at failed
    exact Reader.mode_behindLiteral_ne _ _ _ _ failed
  rcases numeral_cases awaits declared isWhite writes with
    ⟨large, mode⟩ | ⟨undeclared, mode⟩ | ⟨bounds, read⟩
  · exact iff_of_false (notFailed mode) fun bounds => Nat.not_lt_of_le large bounds.1
  · exact iff_of_false (notFailed mode) fun bounds => Nat.not_lt_of_le bounds.2 undeclared.2
  · exact iff_of_true read bounds

/-- Numerals are judged by their numbers, and assumptions like their decimal numerals. -/
theorem decidesRange : DecidesRange front header space where
  invalid_iff := by
    intro numeral code writes
    rw [rejects_iff (by simp)]
    rcases numeral_cases awaits declared isWhite writes with
      ⟨large, mode⟩ | ⟨⟨small, _⟩, mode⟩ | ⟨⟨small, _⟩, literal, _, read⟩
    · exact iff_of_true mode large
    · rw [mode]
      exact iff_of_false (by simp) (Nat.not_le_of_lt small)
    · rw [read]
      exact iff_of_false (Reader.mode_behindLiteral_ne _ _ _ _) (Nat.not_le_of_lt small)
  undeclared_iff := by
    intro numeral code writes
    rw [rejects_iff (by simp)]
    rcases numeral_cases awaits declared isWhite writes with
      ⟨large, mode⟩ | ⟨undeclared, mode⟩ | ⟨⟨_, bound⟩, literal, _, read⟩
    · rw [mode]
      exact iff_of_false (by simp) fun undeclared => Nat.not_lt_of_le large undeclared.1
    · exact iff_of_true mode undeclared
    · rw [read]
      exact iff_of_false (Reader.mode_behindLiteral_ne _ _ _ _)
        fun undeclared => Nat.not_lt_of_le bound undeclared.2
  literal_iff := fun _ _ writes => literal_iff awaits declared isWhite writes
  assumption_iff := by
    intro code literal
    rw [assumption?_eq_some_iff]
    constructor
    · rintro ⟨rfl, bound⟩
      have nonzero := literal.code_ne_zero
      rcases (literal_iff awaits declared isWhite (writesCode_decimal nonzero)).mpr
        ⟨literal.natAbs_code_lt, bound⟩ with ⟨other, same, read⟩
      cases Literal.ext_code same
      exact ⟨rfl, nonzero, read⟩
    · rintro ⟨isCode, nonzero, read⟩
      have bounds := (literal_iff awaits declared isWhite (writesCode_decimal nonzero)).mp
        ⟨literal, isCode, read⟩
      exact ⟨isCode, bounds.2⟩

end

/-- The range of literals is decided by the number that a numeral writes, in every text, behind
every header, and wherever an item may begin.  Every number of variables of at most 64 bits can
be declared in this way.  A numeral of more than 31 bits is rejected as it stands, another one
is rejected if its variable is not declared, and any other becomes the next literal of its
clause.  A number is accepted as an assumption exactly if it is not zero and its decimal numeral
becomes a literal, and it is the same literal. -/
theorem numeral_range_is_decided :
    (∀ variableCount < 18446744073709551616, ∃ front, (Reader.start.read front).AwaitsItem ∧
      (Reader.start.read front).header? = some ⟨variableCount, 0⟩) ∧
    ∀ front header, (Reader.start.read front).AwaitsItem →
      (Reader.start.read front).header? = some header →
        ∀ space, isSpace (Char.ofUInt8 space) = true → DecidesRange front header space := by
  refine ⟨fun _ small => exists_declaration small, ?_⟩
  intro front header awaits declared space isWhite
  exact decidesRange awaits declared isWhite

/-- Of the two numbers with the least size that takes 32 bits neither is a literal, although
there are more variables.  The number before them is one, also as an assumption. -/
theorem range_ends_alike_for_both_signs :
    let front := "p cnf 3000000000 1\n1 ".toList.map Char.toUInt8
    let highest : Literal := ⟨2147483647, by decide, by decide⟩
    ((Reader.start.read front).AwaitsItem ∧
      (Reader.start.read front).header? = some ⟨3000000000, 1⟩ ∧ isSpace (Char.ofUInt8 10) = true) ∧
    Rejects (front ++ "2147483648".toList.map Char.toUInt8 ++ [10]) (.invalidLiteral "2147483648") ∧
    Rejects (front ++ "-2147483648".toList.map Char.toUInt8 ++ [10])
      (.invalidLiteral "-2147483648") ∧
    assumption? 3000000000 2147483647 = some highest ∧
      Reader.start.read (front ++ (toString (2147483647 : Int)).toList.map Char.toUInt8 ++ [10]) =
        (Reader.start.read front).behindLiteral highest '\n' := by
  intro front highest
  have awaits : (Reader.start.read front).AwaitsItem := by decide +kernel
  have declared : (Reader.start.read front).header? = some ⟨3000000000, 1⟩ := by decide +kernel
  have isWhite : isSpace (Char.ofUInt8 10) = true := by decide
  have decides := numeral_range_is_decided.2 front _ awaits declared 10 isWhite
  have assumed : assumption? 3000000000 2147483647 = some highest := by decide
  have digits : ∀ c ∈ "147483648".toList, c.isDigit = true := List.all_eq_true.mp (by decide)
  refine ⟨⟨awaits, declared, isWhite⟩, ?_, ?_, assumed, ?_⟩
  · exact (decides.invalid_iff ("2147483648".toList.map Char.toUInt8) 2147483648
      ⟨'2', _, by decide, digits, Or.inl ⟨by decide, by decide⟩⟩).mpr (by decide)
  · exact (decides.invalid_iff ("-2147483648".toList.map Char.toUInt8) (-2147483648)
      ⟨'2', _, by decide, digits, Or.inr ⟨by decide, by decide⟩⟩).mpr (by decide)
  · exact ((decides.assumption_iff _ _).mp assumed).2.2

end Dimacs
end UnitPropagation
