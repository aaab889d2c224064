import UnitPropagation.Proofs.Dimacs.Items
import UnitPropagation.Proofs.Wording

namespace UnitPropagation
namespace Dimacs

/-!
# Rejections

A text is read or rejected, but the reader is never at fault.  What a rejection quotes
from the text comes from one line, unless a line feed is itself the unexpected character.

Both follow from what the reader has collected in each of its modes: a header without
a line feed, or a numeral that writes a nonzero code.

A line feed is the unexpected character exactly if it follows the minus sign of a numeral.
Everywhere else it is white space, or it ends a header, a comment or a numeral.
-/

/-- Whether what the rejection quotes has no line feed, or is one. -/
def Rejection.IsTidy (rejection : Rejection) : Prop :=
  rejection = .unexpectedCharacter '\n' ∨ Unbroken rejection.quoted

/-- Whether a mode has collected what it should have.  A header has no line feed, and a numeral
writes a code. -/
def Mode.IsTidy : Mode → Prop
  | .header text => '\n' ∉ text.toList
  | .numeral text => ∃ code, WritesCode text.toList code
  | .failed failure => ∃ rejection, failure = .rejected rejection ∧ rejection.IsTidy
  | .lineStart | .comment | .minus | .inClause => True

theorem Rejection.isTidy_of_quoted_eq {rejection : Rejection} (nothing : rejection.quoted = "") :
    rejection.IsTidy := by
  right
  rw [nothing]
  decide

theorem Rejection.isTidy_unexpectedCharacter (c : Char) : (Rejection.unexpectedCharacter c).IsTidy := by
  by_cases isBreak : c = '\n'
  · exact Or.inl (isBreak ▸ rfl)
  · right
    simpa [Unbroken, Rejection.quoted, toString] using Ne.symm isBreak

theorem WritesCode.not_mem {text : List Char} {code : Int} (writes : WritesCode text code) :
    '\n' ∉ text :=
  fun member => Bool.noConfusion (writes.isWord.2 '\n' member)

theorem WritesCode.concat {text : List Char} {code : Int} (writes : WritesCode text code) {c : Char}
    (digit : c.isDigit = true) : ∃ longer, WritesCode (text ++ [c]) longer := by
  rcases writes with ⟨lead, digits, leading, isDigit, coded⟩
  have more : ∀ d ∈ digits ++ [c], d.isDigit = true := by
    intro d member
    rcases List.mem_append.mp member with member | member
    · exact isDigit d member
    · exact List.mem_singleton.mp member ▸ digit
  rcases coded with ⟨rfl, _⟩ | ⟨rfl, _⟩
  · exact ⟨_, lead, digits ++ [c], leading, more, Or.inl ⟨rfl, rfl⟩⟩
  · exact ⟨_, lead, digits ++ [c], leading, more, Or.inr ⟨rfl, rfl⟩⟩

theorem WritesCode.eq_of_int32? {text : List Char} {code read : Int} (writes : WritesCode text code)
    (found : Numeral.int32? text = some read) :
    read = code ∧ -2147483648 ≤ code ∧ code < 2147483648 := by
  rw [Numeral.int32?, writes.integer?_eq, Option.filter_eq_some_iff] at found
  rcases found with ⟨same, inRange⟩
  cases same
  simpa using inRange

namespace Reader

variable {reader : Reader}

theorem isTidy_reject {rejection : Rejection} (quotes : rejection.IsTidy) :
    (reader.reject rejection).mode.IsTidy :=
  ⟨rejection, rfl, quotes⟩

theorem isTidy_endHeader {text : Array Char} (oneLine : '\n' ∉ text.toList) :
    (reader.endHeader text).mode.IsTidy := by
  have trimmed : '\n' ∉ Text.trim isBlank text.toList := by
    intro member
    apply oneLine
    have member := (List.dropWhile_suffix _).subset (List.mem_reverse.mp member)
    exact (List.dropWhile_suffix _).subset (List.mem_reverse.mp member)
  unfold endHeader
  split
  · exact isTidy_reject (Rejection.isTidy_of_quoted_eq rfl)
  · dsimp only
    split
    · trivial
    · exact isTidy_reject (Or.inr (unbroken_ofList.mpr trimmed))

/-- A numeral which is read as a number in range is the code of a literal. -/
theorem isTidy_endNumeral {text : Array Char} {code : Int} (writes : WritesCode text.toList code)
    {next : Mode} (tidy : next.IsTidy) : (reader.endNumeral text next).mode.IsTidy := by
  have quotes : (Rejection.invalidLiteral (String.ofList text.toList)).IsTidy :=
    Or.inr (unbroken_ofList.mpr writes.not_mem)
  unfold endNumeral
  split
  · exact isTidy_reject (Rejection.isTidy_of_quoted_eq rfl)
  · dsimp only
    split
    · exact isTidy_reject quotes
    · rename_i read found
      rcases writes.eq_of_int32? found with ⟨rfl, lower, upper⟩
      split
      · exact isTidy_reject quotes
      · rename_i notLowest
        split
        · exact isTidy_reject (Rejection.isTidy_of_quoted_eq rfl)
        · have bound : read.natAbs < 2147483648 := by omega
          let literal : Literal := ⟨read, writes.ne_zero, bound⟩
          have isCode : Literal.ofCode read = .ok literal := Literal.ofCode_code literal
          rw [isCode]
          exact tidy

theorem isTidy_endClause : reader.endClause.mode.IsTidy := by
  unfold endClause
  split
  · exact isTidy_reject (Rejection.isTidy_of_quoted_eq rfl)
  · trivial

theorem isTidy_beginItem (c : Char) : (reader.beginItem c).mode.IsTidy := by
  unfold beginItem
  split
  · exact isTidy_endClause
  · split
    · rename_i leading
      exact ⟨_, c, [], leading, by simp, Or.inl ⟨rfl, rfl⟩⟩
    · split
      · trivial
      · exact isTidy_reject (Rejection.isTidy_unexpectedCharacter c)

theorem isTidy_step (tidy : reader.mode.IsTidy) (c : Char) : (reader.step c).mode.IsTidy := by
  unfold step
  cases isMode : reader.mode with
  | lineStart =>
      dsimp only
      split
      · exact tidy
      · split
        · rename_i isMark
          subst isMark
          exact (by decide : '\n' ∉ ['p'])
        · split
          · trivial
          · exact isTidy_beginItem c
  | header text =>
      rw [isMode] at tidy
      dsimp only
      split
      · exact isTidy_endHeader tidy
      · rename_i inside
        rw [goTo, Mode.IsTidy, Array.toList_push]
        intro member
        rcases List.mem_append.mp member with member | member
        · exact tidy member
        · exact inside (List.mem_singleton.mp member).symm
  | comment =>
      dsimp only
      split
      · trivial
      · exact tidy
  | minus =>
      dsimp only
      split
      · rename_i leading
        exact ⟨_, c, [], leading, by simp, Or.inr ⟨rfl, rfl⟩⟩
      · exact isTidy_reject (Rejection.isTidy_unexpectedCharacter c)
  | numeral text =>
      rw [isMode] at tidy
      rcases tidy with ⟨code, writes⟩
      dsimp only
      split
      · exact isTidy_endNumeral writes trivial
      · split
        · exact isTidy_endNumeral writes trivial
        · split
          · rename_i digit
            rcases writes.concat digit with ⟨longer, writesLonger⟩
            exact ⟨longer, by simpa [goTo] using writesLonger⟩
          · exact isTidy_reject (Rejection.isTidy_unexpectedCharacter c)
  | inClause =>
      dsimp only
      split
      · trivial
      · split
        · exact tidy
        · exact isTidy_beginItem c
  | failed failure => exact tidy

theorem isTidy_readText (tidy : reader.mode.IsTidy) (text : List Char) :
    (reader.readText text).mode.IsTidy := by
  induction text generalizing reader with
  | nil => exact tidy
  | cons c text ih => exact ih (isTidy_step tidy c)

/-! ## Sources without content are rejected -/

theorem exists_rejection_of_content {failure : Failure} (failed : reader.content = .error failure) :
    ∃ rejection, failure = .rejected rejection ∧ rejection.IsTidy := by
  unfold content at failed
  split at failed
  · cases failed
    exact ⟨_, rfl, Rejection.isTidy_of_quoted_eq rfl⟩
  · split at failed
    · cases failed
      exact ⟨_, rfl, Rejection.isTidy_of_quoted_eq rfl⟩
    · split at failed <;> cases failed
      exact ⟨_, rfl, Rejection.isTidy_of_quoted_eq rfl⟩

theorem exists_rejection_of_finish (tidy : reader.mode.IsTidy) {failure : Failure}
    (failed : reader.finish = .error failure) :
    ∃ rejection, failure = .rejected rejection ∧ rejection.IsTidy := by
  unfold finish at failed
  cases isMode : reader.mode with
  | failed earlier =>
      rw [isMode] at failed tidy
      cases failed
      exact tidy
  | minus | numeral text =>
      rw [isMode] at failed
      cases failed
      exact ⟨_, rfl, Rejection.isTidy_of_quoted_eq rfl⟩
  | header text =>
      rw [isMode] at failed tidy
      have ended : (reader.endHeader text).mode.IsTidy := isTidy_endHeader tidy
      dsimp only at failed
      split at failed
      · rename_i met
        rw [met] at ended
        cases failed
        exact ended
      · exact exists_rejection_of_content failed
  | lineStart | comment | inClause =>
      rw [isMode] at failed
      exact exists_rejection_of_content failed

end Reader

/-- Whatever a source hands out, and whether or not it breaks, it is read or rejected. -/
theorem Source.exists_rejection (source : Source) {failure : Failure}
    (failed : source.result = .error failure) :
    ∃ rejection, failure = .rejected rejection ∧ rejection.IsTidy := by
  have tidy : source.read.mode.IsTidy := by
    rw [source.read_eq, Reader.read_eq_readText]
    have tidy : Reader.start.mode.IsTidy := trivial
    exact Reader.isTidy_readText tidy _
  unfold result at failed
  split at failed
  · split at failed
    · rename_i met
      rw [met] at tidy
      cases failed
      exact tidy
    · cases failed
      exact ⟨_, rfl, Rejection.isTidy_of_quoted_eq rfl⟩
  · exact Reader.exists_rejection_of_finish tidy failed

/-! ## Numerals broken by a line feed -/

/-- What the reader is left with when a line feed follows the minus sign of a numeral. -/
def Mode.breakBehindMinus : Mode :=
  .failed (.rejected (.unexpectedCharacter '\n'))

/-- Whether the text has a line feed where the minus sign of a numeral was just read. -/
def Source.BreaksNumeral (source : Source) : Prop :=
  ∃ before after, source.bytes = before ++ 10 :: after ∧ (Reader.start.read before).mode = .minus

namespace Reader

variable {reader : Reader}

theorem mode_endHeader_ne (text : Array Char) :
    (reader.endHeader text).mode ≠ .breakBehindMinus := by
  unfold endHeader
  split
  · rintro ⟨⟩
  · dsimp only
    split <;> rintro ⟨⟩

theorem mode_endNumeral_ne (text : Array Char) {next : Mode} (other : next ≠ .breakBehindMinus) :
    (reader.endNumeral text next).mode ≠ .breakBehindMinus := by
  unfold endNumeral
  split
  · rintro ⟨⟩
  · dsimp only
    split
    · rintro ⟨⟩
    · split
      · rintro ⟨⟩
      · split
        · rintro ⟨⟩
        · split
          · exact other
          · rintro ⟨⟩

theorem mode_beginItem_ne {c : Char} (solid : c ≠ '\n') :
    (reader.beginItem c).mode ≠ .breakBehindMinus := by
  unfold beginItem endClause
  split
  · split <;> rintro ⟨⟩
  · split
    · rintro ⟨⟩
    · split
      · rintro ⟨⟩
      · simp [reject, goTo, Mode.breakBehindMinus, solid]

/-- A step breaks a numeral exactly if it reads a line feed behind a minus sign. -/
theorem mode_step_iff (c : Char) : (reader.step c).mode = .breakBehindMinus ↔
    reader.mode = .breakBehindMinus ∨ (reader.mode = .minus ∧ c = '\n') := by
  unfold step
  cases isMode : reader.mode with
  | lineStart =>
      refine iff_of_false ?_ (by simp [Mode.breakBehindMinus])
      dsimp only
      split
      · simp [isMode, Mode.breakBehindMinus]
      · rename_i notSpace
        split
        · rintro ⟨⟩
        · split
          · rintro ⟨⟩
          · apply mode_beginItem_ne
            rintro rfl
            exact notSpace rfl
  | header text =>
      refine iff_of_false ?_ (by simp [Mode.breakBehindMinus])
      dsimp only
      split
      · exact mode_endHeader_ne text
      · rintro ⟨⟩
  | comment =>
      refine iff_of_false ?_ (by simp [Mode.breakBehindMinus])
      dsimp only
      split <;> simp [goTo, isMode, Mode.breakBehindMinus]
  | minus =>
      dsimp only
      split
      · rename_i leading
        refine iff_of_false (by rintro ⟨⟩) ?_
        rintro (impossible | ⟨_, rfl⟩)
        · cases impossible
        · cases leading
      · simp [reject, goTo, Mode.breakBehindMinus]
  | numeral text =>
      refine iff_of_false ?_ (by simp [Mode.breakBehindMinus])
      dsimp only
      split
      · exact mode_endNumeral_ne text (by rintro ⟨⟩)
      · rename_i solid
        split
        · exact mode_endNumeral_ne text (by rintro ⟨⟩)
        · split
          · rintro ⟨⟩
          · simp [reject, goTo, Mode.breakBehindMinus, solid]
  | inClause =>
      refine iff_of_false ?_ (by simp [Mode.breakBehindMinus])
      dsimp only
      split
      · rintro ⟨⟩
      · rename_i solid
        split
        · simp [isMode, Mode.breakBehindMinus]
        · exact mode_beginItem_ne solid
  | failed failure => simp [isMode]

theorem ofUInt8_eq_break_iff {byte : UInt8} : Char.ofUInt8 byte = '\n' ↔ byte = 10 := by
  constructor
  · intro same
    have numbers := congrArg Char.toNat same
    exact UInt8.toNat_inj.mp numbers
  · rintro rfl
    rfl

/-- Reading breaks a numeral exactly if some line feed is read behind a minus sign. -/
theorem mode_read_iff {bytes : List UInt8} : ∀ {reader : Reader},
    (reader.read bytes).mode = .breakBehindMinus ↔ reader.mode = .breakBehindMinus ∨
      ∃ before after, bytes = before ++ 10 :: after ∧ (reader.read before).mode = .minus := by
  induction bytes with
  | nil =>
      intro reader
      simp
  | cons byte bytes ih =>
      intro reader
      have step : reader.read (byte :: bytes) = (reader.step (Char.ofUInt8 byte)).read bytes := rfl
      rw [step, ih, mode_step_iff, ofUInt8_eq_break_iff, or_assoc]
      apply or_congr_right
      constructor
      · rintro (⟨isMinus, rfl⟩ | ⟨before, after, rfl, isMinus⟩)
        · exact ⟨[], bytes, rfl, isMinus⟩
        · exact ⟨byte :: before, after, rfl, isMinus⟩
      · rintro ⟨_ | ⟨opening, before⟩, after, split, isMinus⟩
        · cases split
          exact Or.inl ⟨isMinus, rfl⟩
        · cases split
          exact Or.inr ⟨before, after, rfl, isMinus⟩

theorem content_ne_break : reader.content ≠ .error (.rejected (.unexpectedCharacter '\n')) := by
  unfold content
  split
  · simp
  · split
    · simp
    · split <;> simp

theorem finish_eq_break_iff : reader.finish = .error (.rejected (.unexpectedCharacter '\n')) ↔
    reader.mode = .breakBehindMinus := by
  unfold finish
  cases isMode : reader.mode with
  | failed failure => simp [Mode.breakBehindMinus]
  | minus | numeral text => simp [Mode.breakBehindMinus]
  | header text =>
      refine iff_of_false ?_ (by simp [Mode.breakBehindMinus])
      dsimp only
      split
      · rename_i failure met
        have other := reader.mode_endHeader_ne text
        rw [met] at other
        simpa [Mode.breakBehindMinus] using other
      · exact content_ne_break
  | lineStart | comment | inClause =>
      exact iff_of_false content_ne_break (by simp [Mode.breakBehindMinus])

end Reader

/-- A source is rejected for a line feed exactly if it breaks a numeral. -/
theorem Source.result_eq_break_iff {source : Source} :
    source.result = .error (.rejected (.unexpectedCharacter '\n')) ↔ source.BreaksNumeral := by
  have breaks : source.read.mode = .breakBehindMinus ↔ source.BreaksNumeral := by
    rw [source.read_eq, Reader.mode_read_iff]
    simp [Reader.start, Mode.breakBehindMinus, BreaksNumeral]
  rw [← breaks, result]
  split
  · cases isMode : source.read.mode <;> simp [Mode.breakBehindMinus]
  · exact Reader.finish_eq_break_iff

end Dimacs
end UnitPropagation
