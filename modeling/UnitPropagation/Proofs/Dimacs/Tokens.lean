import Mathlib.Data.List.Forall2
import UnitPropagation.Proofs.Dimacs.Acceptance

namespace UnitPropagation
namespace Dimacs

/-!
# Tokens

The tokens of a text are what white space separates, once the comments and the header are
left out.  A reader ends a numeral at white space, but it takes the zero of a clause without
a look at what follows.  So a token of an accepted text need not be an item: it may be
several zeros, and a numeral may follow them, with nothing in between.  The items of all
tokens are those of the clauses nevertheless.

Hence the tokens are the items, one by one, exactly if no token begins with a zero and goes
on after it.
-/

/-- Whether the line is a comment or a header, to judge by what it begins with. -/
def isAside (line : List Char) : Bool :=
  (line.find? fun c => !isSpace c).any fun c => c == 'c' || c == 'p'

def dataLines (text : List Char) : List (List Char) :=
  (Text.split (· = '\n') text).filter fun line => !isAside line

/-- What white space separates in a text, without its comments and its header. -/
def tokens (text : List Char) : List (List Char) :=
  (dataLines text).flatMap (Text.words isSpace)

/-- Whether a token is a zero or a numeral, and which item it stands for. -/
inductive WritesToken : List Char → Item → Prop where
  | zero : WritesToken ['0'] .zero
  | code {numeral : List Char} {code : Int} :
    WritesCode numeral code → WritesToken numeral (.code code)

/-- Whether a token consists of items with nothing in between: an item, or zeros before one. -/
inductive WritesGlued : List Char → List Item → Prop where
  | item {token : List Char} {item : Item} : WritesToken token item → WritesGlued token [item]
  | behindZero {token : List Char} {items : List Item} :
    WritesGlued token items → WritesGlued ('0' :: token) (.zero :: items)

/-- Whether the token begins with a zero and goes on after it. -/
def GoesOnAfterZero (token : List Char) : Prop :=
  token.head? = some '0' ∧ token ≠ ['0']

instance (token : List Char) : Decidable (GoesOnAfterZero token) :=
  inferInstanceAs (Decidable (token.head? = some '0' ∧ token ≠ ['0']))

/-- Written items are the tokens of the text, apart from those which are glued together. -/
theorem WritesItems.glued {text : List Char} {items : List Item} (writes : WritesItems text items) :
    ∃ groups, List.Forall₂ WritesGlued (Text.words isSpace text) groups ∧
      groups.flatten = items := by
  induction writes with
  | nil => exact ⟨[], .nil, rfl⟩
  | space space _ ih =>
      rw [Text.words_cons_separator space]
      exact ih
  | @zero text items _ ih =>
      rcases ih with ⟨groups, glued, flatten⟩
      rcases Text.words_cons_solid (rfl : isSpace '0' = false) text with
        alone | ⟨word, others, first, joined⟩
      · rw [alone]
        exact ⟨[.zero] :: groups, .cons (.item .zero) glued, congrArg _ flatten⟩
      · rw [first] at glued
        rw [joined]
        cases glued with
        | @cons _ group _ groups isGlued rest =>
            exact ⟨(.zero :: group) :: groups, .cons (.behindZero isGlued) rest, congrArg _ flatten⟩
  | @code numeral code c text items writesCode space _ ih =>
      rcases ih with ⟨groups, glued, flatten⟩
      have ends : ∀ d, (c :: text).head? = some d → isSpace d = true := by
        rintro d atHead
        cases atHead
        exact space
      rw [Text.words_word writesCode.isWord.1 writesCode.isWord.2 ends]
      exact ⟨[.code code] :: groups, .cons (.item (.code writesCode)) glued, congrArg _ flatten⟩

theorem isAside_append {spaces text : List Char} (space : ∀ c ∈ spaces, isSpace c = true) :
    isAside (spaces ++ text) = isAside text := by
  have skipped : spaces.find? (fun c => !isSpace c) = none := by
    simpa using space
  rw [isAside, List.find?_append, skipped, Option.none_or, isAside]

theorem isAside_concat_break (line : List Char) : isAside (line ++ ['\n']) = isAside line := by
  rw [isAside, List.find?_append]
  exact congrArg _ (Option.or_none)

/-- The tokens of a line are glued together from its items. -/
theorem WritesLine.glued {text : List Char} {line : Line} (writes : WritesLine text line) :
    ∃ groups,
      List.Forall₂ WritesGlued (if isAside text then [] else Text.words isSpace text) groups ∧
        groups.flatten = line.items := by
  cases writes with
  | blank space =>
      rw [Text.words_of_separators space, ite_self]
      exact ⟨[], .nil, rfl⟩
  | comment space =>
      rw [isAside_append space]
      exact ⟨[], .nil, rfl⟩
  | @header spaces text header space writesHeader =>
      have aside : isAside text = true := by
        cases text with
        | nil => cases writesHeader.head?
        | cons c text =>
            cases writesHeader.head?
            rfl
      rw [isAside_append space, if_pos aside]
      exact ⟨[], .nil, rfl⟩
  | data writesItems nonempty =>
      rcases Reader.exists_first_of_writesItems writesItems nonempty with
        ⟨spaces, c, rest, rfl, space, solid, noHeader, noComment⟩
      have aside : isAside (c :: rest) = false := by
        simp [isAside, solid, noHeader, noComment]
      rw [isAside_append space, aside]
      exact writesItems.glued

/-- A line without line feed has the tokens that it has with one. -/
theorem tokens_of_not_mem {line : List Char} (noBreak : '\n' ∉ line) :
    tokens line = if isAside line then [] else Text.words isSpace line := by
  have whole : Text.split (· = '\n') line = [line] := by
    apply Text.split_of_solid
    intro c member
    exact decide_eq_false fun same => noBreak (same ▸ member)
  rw [tokens, dataLines, whole]
  cases aside : isAside line <;> simp [aside]

theorem tokens_append_break (text more : List Char) :
    tokens (text ++ '\n' :: more) = tokens text ++ tokens more := by
  have cut : Text.split (· = '\n') (text ++ '\n' :: more) =
      Text.split (· = '\n') text ++ Text.split (· = '\n') more :=
    Text.split_append_separator rfl text more
  rw [tokens, dataLines, cut, List.filter_append, List.flatMap_append]
  rfl

theorem WritesLines.glued {text : List Char} {lines : List Line} (writes : WritesLines text lines) :
    ∃ groups, List.Forall₂ WritesGlued (tokens text) groups ∧ groups.flatten = itemsOf lines := by
  induction writes with
  | @last text line noBreak writesLine =>
      rw [tokens_of_not_mem noBreak, itemsOf, List.flatMap_singleton]
      exact writesLine.glued
  | @cons text more line lines noBreak writesLine _ ih =>
      rcases ih with ⟨groups, glued, flatten⟩
      rcases writesLine.glued with ⟨lineGroups, lineGlued, lineFlatten⟩
      rw [isAside_concat_break, Text.words_concat_separator text (rfl : isSpace '\n' = true),
        ← tokens_of_not_mem noBreak] at lineGlued
      rw [tokens_append_break, itemsOf_cons]
      refine ⟨lineGroups ++ groups, List.rel_append lineGlued glued, ?_⟩
      rw [List.flatten_append, lineFlatten, flatten]

theorem WritesToken.not_goesOn {token : List Char} {item : Item} (writes : WritesToken token item) :
    ¬GoesOnAfterZero token := by
  rintro ⟨begins, goesOn⟩
  cases writes with
  | zero => exact goesOn rfl
  | code writesCode =>
      rcases writesCode with ⟨lead, digits, leading, _, ⟨rfl, _⟩ | ⟨rfl, _⟩⟩
      · cases begins
        cases leading
      · cases begins

theorem WritesGlued.ne_nil {token : List Char} {items : List Item}
    (glued : WritesGlued token items) : token ≠ [] := by
  cases glued with
  | item writes =>
      cases writes with
      | zero => exact List.cons_ne_nil _ _
      | code writesCode => exact writesCode.isWord.1
  | behindZero => exact List.cons_ne_nil _ _

/-- A token that does not go on after a zero is an item. -/
theorem WritesGlued.exists_item {token : List Char} {items : List Item}
    (glued : WritesGlued token items) (separate : ¬GoesOnAfterZero token) :
    ∃ item, items = [item] ∧ WritesToken token item := by
  cases glued with
  | item writes => exact ⟨_, rfl, writes⟩
  | @behindZero token items behind =>
      have goesOn : '0' :: token ≠ ['0'] := fun same => behind.ne_nil (List.cons.inj same).2
      exact absurd ⟨rfl, goesOn⟩ separate

theorem forall₂_writesToken_of_separate {words : List (List Char)} {groups : List (List Item)}
    (glued : List.Forall₂ WritesGlued words groups)
    (separate : ∀ word ∈ words, ¬GoesOnAfterZero word) :
    List.Forall₂ WritesToken words groups.flatten := by
  induction glued with
  | nil => exact .nil
  | cons first _ ih =>
      rw [List.forall_mem_cons] at separate
      rcases first.exists_item separate.1 with ⟨item, rfl, writes⟩
      exact .cons writes (ih separate.2)

theorem separate_of_forall₂_writesToken {words : List (List Char)} {items : List Item}
    (writes : List.Forall₂ WritesToken words items) : ∀ word ∈ words, ¬GoesOnAfterZero word := by
  induction writes with
  | nil => simp
  | cons first _ ih => exact List.forall_mem_cons.mpr ⟨first.not_goesOn, ih⟩

/-- The tokens of an accepted text, glued together from the items of its clauses, are these
items one by one exactly if none of them goes on after a zero. -/
theorem tokens_are_items_unless_glued {bytes : List UInt8} {content : Content}
    (accepted : (Source.ofBytes bytes).result = .ok content) :
    (∃ groups, List.Forall₂ WritesGlued (tokens (bytes.map Char.ofUInt8)) groups ∧
      groups.flatten = itemsOfClauses content.clauses) ∧
    (List.Forall₂ WritesToken (tokens (bytes.map Char.ofUInt8)) (itemsOfClauses content.clauses) ↔
      ∀ token ∈ tokens (bytes.map Char.ofUInt8), ¬GoesOnAfterZero token) := by
  rcases exists_arranged_of_result accepted with ⟨lines, header, writes, arranged⟩
  rcases exists_result_of_arranged writes arranged with ⟨other, again, _, items⟩
  cases accepted.symm.trans again
  rcases writes.glued with ⟨groups, glued, flatten⟩
  rw [items] at flatten
  refine ⟨⟨groups, glued, flatten⟩, separate_of_forall₂_writesToken, ?_⟩
  intro separate
  rw [← flatten]
  exact forall₂_writesToken_of_separate glued separate

/-- Comments and line ends make no difference between tokens and items. -/
theorem separate_tokens_are_items :
    let bytes := "c a\np cnf 2 2\n1\nc b\n-2 0 0".toList.map Char.toUInt8
    ∃ content, (Source.ofBytes bytes).result = .ok content ∧
      List.Forall₂ WritesToken (tokens (bytes.map Char.ofUInt8))
        (itemsOfClauses content.clauses) := by
  intro bytes
  have isAccepted : (Source.ofBytes bytes).result.toOption.any (fun _ => true) = true := by
    decide +kernel
  rcases Source.exists_content_of_any isAccepted with ⟨content, accepted, _⟩
  have separate : ∀ token ∈ tokens (bytes.map Char.ofUInt8), ¬GoesOnAfterZero token := by
    decide +kernel
  exact ⟨content, accepted, (tokens_are_items_unless_glued accepted).2.mpr separate⟩

/-- A numeral that directly follows a zero is accepted, as the first literal of the next clause,
although the token of both is neither a zero nor a numeral. -/
theorem glued_numeral_is_accepted :
    let bytes := "p cnf 1 2\n01 0\n".toList.map Char.toUInt8
    ∃ content, (Source.ofBytes bytes).result = .ok content ∧
      itemsOfClauses content.clauses = [.zero, .code 1, .zero] ∧
        ['0', '1'] ∈ tokens (bytes.map Char.ofUInt8) ∧ (∀ item, ¬WritesToken ['0', '1'] item) ∧
          ¬List.Forall₂ WritesToken (tokens (bytes.map Char.ofUInt8))
            (itemsOfClauses content.clauses) := by
  intro bytes
  have items : (Source.ofBytes bytes).result.toOption.any (fun content =>
      itemsOfClauses content.clauses == [.zero, .code 1, .zero]) = true := by
    decide +kernel
  rcases Source.exists_content_of_any items with ⟨content, accepted, written⟩
  have isToken : ['0', '1'] ∈ tokens (bytes.map Char.ofUInt8) := by decide +kernel
  have isGlued : GoesOnAfterZero ['0', '1'] := by decide
  refine ⟨content, accepted, eq_of_beq written, isToken, ?_, ?_⟩
  · exact fun _ writes => writes.not_goesOn isGlued
  · exact fun writes => separate_of_forall₂_writesToken writes _ isToken isGlued

end Dimacs
end UnitPropagation
