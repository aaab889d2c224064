import UnitPropagation.Dimacs.Format

namespace UnitPropagation

/-!
# Header lines

A header is read by trimming it and cutting it into words.  This is the same as
finding the mark of a header and two numbers with blanks in between and behind them.
-/

namespace Text

variable {isSeparator : Char → Bool}

theorem words_cons_separator {c : Char} (separates : isSeparator c = true) (text : List Char) :
    words isSeparator (c :: text) = words isSeparator text := by
  rw [words, split_cons_separator separates, List.filter_cons_of_neg (by simp), words]

theorem words_gap {gap : List Char} (separates : ∀ c ∈ gap, isSeparator c = true)
    (text : List Char) : words isSeparator (gap ++ text) = words isSeparator text := by
  induction gap with
  | nil => rfl
  | cons c gap ih =>
      rw [List.cons_append, words_cons_separator (separates c List.mem_cons_self)]
      exact ih fun d member => separates d (List.mem_cons_of_mem c member)

theorem words_concat_separator (text : List Char) {c : Char} (separates : isSeparator c = true) :
    words isSeparator (text ++ [c]) = words isSeparator text := by
  rw [words, split_append_separator separates, List.filter_append]
  exact List.append_nil _

/-- A character that separates nothing is a word, or the beginning of the first word behind it. -/
theorem words_cons_solid {c : Char} (solid : isSeparator c = false) (text : List Char) :
    words isSeparator (c :: text) = [c] :: words isSeparator text ∨
      ∃ word others, words isSeparator text = word :: others ∧
        words isSeparator (c :: text) = (c :: word) :: others := by
  rcases exists_split_eq_cons isSeparator text with ⟨piece, pieces, cut⟩
  simp only [words, split, solid, cut, Bool.false_eq_true, if_false, List.modifyHead_cons]
  cases piece with
  | nil => exact Or.inl rfl
  | cons d piece => exact Or.inr ⟨d :: piece, _, rfl, rfl⟩

/-- A word is as long as it can be: it ends where the text ends or at a separator. -/
theorem words_word {word text : List Char} (nonempty : word ≠ [])
    (solid : ∀ c ∈ word, isSeparator c = false)
    (ends : ∀ c, text.head? = some c → isSeparator c = true) :
    words isSeparator (word ++ text) = word :: words isSeparator text := by
  have cut : ∀ piece : List Char, (∀ c ∈ piece, isSeparator c = false) →
      ∃ pieces, split isSeparator (piece ++ text) = piece :: pieces ∧
        pieces.filter (fun piece => !piece.isEmpty) = words isSeparator text := by
    intro piece
    induction piece with
    | nil =>
        intro _
        cases text with
        | nil => exact ⟨[], rfl, rfl⟩
        | cons c text =>
            have separates := ends c rfl
            exact ⟨_, split_cons_separator separates text, (words_cons_separator separates text).symm⟩
    | cons c piece ih =>
        intro solidPiece
        rcases ih fun d member => solidPiece d (List.mem_cons_of_mem c member) with
          ⟨pieces, found, rest⟩
        refine ⟨pieces, ?_, rest⟩
        rw [List.cons_append, split, if_neg (by simp [solidPiece c List.mem_cons_self]), found,
          List.modifyHead_cons]
  rcases cut word solid with ⟨pieces, found, rest⟩
  rw [words, found, List.filter_cons_of_pos (by simpa using nonempty), rest]

theorem words_of_separators {gap : List Char} (separates : ∀ c ∈ gap, isSeparator c = true) :
    words isSeparator gap = [] := by
  rw [← List.append_nil gap, words_gap separates]
  rfl

/-- A text is cut where a condition fails for the first time. -/
theorem exists_run (holds : Char → Bool) (text : List Char) :
    ∃ run rest, text = run ++ rest ∧ (∀ c ∈ run, holds c = true) ∧
      ∀ c, rest.head? = some c → holds c = false := by
  refine ⟨text.takeWhile holds, text.dropWhile holds, List.takeWhile_append_dropWhile.symm,
    List.all_eq_true.mp List.all_takeWhile, ?_⟩
  intro c first
  have fails := List.head?_dropWhile_not holds text
  rw [first] at fails
  exact fails

/-- A text has nothing but separators, or there is a first word. -/
theorem gap_or_word (isSeparator : Char → Bool) (text : List Char) :
    (∀ c ∈ text, isSeparator c = true) ∨
      ∃ gap word rest, text = gap ++ word ++ rest ∧ (∀ c ∈ gap, isSeparator c = true) ∧
        word ≠ [] ∧ (∀ c ∈ word, isSeparator c = false) ∧
          (∀ c, rest.head? = some c → isSeparator c = true) ∧
            words isSeparator text = word :: words isSeparator rest := by
  rcases exists_run isSeparator text with ⟨gap, behind, rfl, separates, notSeparator⟩
  rcases exists_run (fun c => !isSeparator c) behind with ⟨word, rest, rfl, solid, ends⟩
  simp only [Bool.not_eq_true', Bool.not_eq_false'] at solid ends
  cases word with
  | nil =>
      left
      cases rest with
      | nil => simpa using separates
      | cons c rest => exact absurd (ends c rfl) (by simp [notSeparator c rfl])
  | cons c word =>
      right
      refine ⟨gap, c :: word, rest, (List.append_assoc _ _ _).symm, separates,
        List.cons_ne_nil c word, solid, ends, ?_⟩
      rw [words_gap separates, words_word (List.cons_ne_nil c word) solid ends]

theorem separators_of_words_eq_nil {text : List Char} (none : words isSeparator text = []) :
    ∀ c ∈ text, isSeparator c = true := by
  rcases gap_or_word isSeparator text with separates | ⟨_, _, _, _, _, _, _, _, found⟩
  · exact separates
  · rw [none] at found
    cases found

theorem exists_of_words_eq_cons {text word : List Char} {others : List (List Char)}
    (found : words isSeparator text = word :: others) :
    ∃ gap rest, text = gap ++ word ++ rest ∧ (∀ c ∈ gap, isSeparator c = true) ∧
      word ≠ [] ∧ (∀ c ∈ word, isSeparator c = false) ∧
        (∀ c, rest.head? = some c → isSeparator c = true) ∧ words isSeparator rest = others := by
  rcases gap_or_word isSeparator text with
    separates | ⟨gap, other, rest, cut, separates, nonempty, solid, ends, same⟩
  · rw [words_of_separators separates] at found
    cases found
  · rw [same] at found
    cases found
    exact ⟨gap, rest, cut, separates, nonempty, solid, ends, rfl⟩

/-- Whether the text is one of the words of a longer text, where separators are around it. -/
def IsWord (isSeparator : Char → Bool) (word : List Char) : Prop :=
  word ≠ [] ∧ ∀ c ∈ word, isSeparator c = false

/-- A text has just two words if there are separators between them and perhaps around them. -/
theorem words_eq_pair_iff {text first second : List Char} (isWord : IsWord isSeparator first)
    (isWordSecond : IsWord isSeparator second) :
    words isSeparator text = [first, second] ↔ ∃ gap between ending,
      text = gap ++ first ++ between ++ second ++ ending ∧
        (∀ c ∈ gap ++ between ++ ending, isSeparator c = true) ∧ between ≠ [] := by
  constructor
  · intro found
    rcases exists_of_words_eq_cons found with ⟨gap, behind, rfl, inGap, _, _, ends, foundSecond⟩
    rcases exists_of_words_eq_cons foundSecond with
      ⟨between, ending, rfl, inBetween, _, _, _, foundLast⟩
    refine ⟨gap, between, ending, by simp only [List.append_assoc], ?_, ?_⟩
    · intro c member
      rcases List.mem_append.mp member with inFront | inEnding
      · rcases List.mem_append.mp inFront with member | member
        · exact inGap c member
        · exact inBetween c member
      · exact separators_of_words_eq_nil foundLast c inEnding
    · rintro rfl
      rcases List.exists_cons_of_ne_nil isWordSecond.1 with ⟨c, word, rfl⟩
      exact absurd (ends c rfl) (by simp [isWordSecond.2 c List.mem_cons_self])
  · rintro ⟨gap, between, ending, rfl, separates, nonempty⟩
    have inGap : ∀ c ∈ gap, isSeparator c = true := fun c member => separates c (by simp [member])
    have inBetween : ∀ c ∈ between, isSeparator c = true :=
      fun c member => separates c (by simp [member])
    have inEnding : ∀ c ∈ ending, isSeparator c = true :=
      fun c member => separates c (by simp [member])
    simp only [List.append_assoc]
    rw [words_gap inGap, words_word isWord.1 isWord.2, words_gap inBetween,
      words_word isWordSecond.1 isWordSecond.2, words_of_separators inEnding]
    · intro c atHead
      exact inEnding c (List.mem_of_mem_head? atHead)
    · intro c atHead
      rcases List.exists_cons_of_ne_nil nonempty with ⟨d, others, rfl⟩
      cases atHead
      exact inBetween c List.mem_cons_self

/-! ## Texts without blanks at their ends -/

theorem dropWhile_of_head? {holds : Char → Bool} {text : List Char}
    (first : ∀ c, text.head? = some c → holds c = false) : text.dropWhile holds = text := by
  cases text with
  | nil => rfl
  | cons c text => exact List.dropWhile_cons_of_neg (by simp [first c rfl])

/-- Trimming a text takes separators from its end, if it does not begin with one. -/
theorem exists_trim {text : List Char}
    (first : ∀ c, text.head? = some c → isSeparator c = false) :
    ∃ ending, text = trim isSeparator text ++ ending ∧ ∀ c ∈ ending, isSeparator c = true := by
  refine ⟨(text.reverse.takeWhile isSeparator).reverse, ?_, ?_⟩
  · rw [trim, dropWhile_of_head? first, ← List.reverse_append, List.takeWhile_append_dropWhile,
      List.reverse_reverse]
  · intro c member
    exact List.all_eq_true.mp List.all_takeWhile c (List.mem_reverse.mp member)

theorem trim_append {body ending : List Char}
    (first : ∀ c, (body ++ ending).head? = some c → isSeparator c = false)
    (last : ∀ c, body.getLast? = some c → isSeparator c = false)
    (separates : ∀ c ∈ ending, isSeparator c = true) : trim isSeparator (body ++ ending) = body := by
  rw [trim, dropWhile_of_head? first, List.reverse_append, List.dropWhile_append_of_pos,
    dropWhile_of_head?, List.reverse_reverse]
  · intro c atHead
    rw [List.head?_reverse] at atHead
    exact last c atHead
  · intro c member
    exact separates c (List.mem_reverse.mp member)

theorem trim_concat {c : Char} (separates : isSeparator c = true) (text : List Char) :
    trim isSeparator (text ++ [c]) = trim isSeparator text := by
  rcases exists_run isSeparator text with ⟨gap, rest, rfl, separatesGap, solid⟩
  rw [trim, trim, List.append_assoc, List.dropWhile_append_of_pos separatesGap,
    List.dropWhile_append_of_pos separatesGap]
  cases rest with
  | nil => rw [List.nil_append, List.dropWhile_cons_of_pos separates]
  | cons d rest =>
      have first : isSeparator d = false := solid d rfl
      rw [List.cons_append, List.dropWhile_cons_of_neg (by simp [first]),
        List.dropWhile_cons_of_neg (by simp [first]), ← List.cons_append, List.reverse_append,
        List.reverse_singleton, List.singleton_append, List.dropWhile_cons_of_pos separates]

end Text

namespace Dimacs

theorem digits?_eq_some_iff {text : List Char} {number : Nat} :
    Numeral.digits? text = some number ↔ WritesNumber text number := by
  unfold Numeral.digits?
  split
  · rename_i digits
    rw [Option.some.injEq, WritesNumber]
    constructor
    · intro same
      exact ⟨digits.1, List.all_eq_true.mp digits.2, same.symm⟩
    · rintro ⟨_, _, same⟩
      exact same.symm
  · rename_i other
    constructor
    · intro impossible
      cases impossible
    · rintro ⟨nonempty, digits, _⟩
      exact absurd ⟨nonempty, List.all_eq_true.mpr digits⟩ other

theorem word64?_eq_some_iff {text : List Char} {count : Nat} :
    Numeral.word64? text = some count ↔ WritesCount text count := by
  have natural : Numeral.natural? text = some count ↔
      (WritesNumber text count ∨ ∃ digits, text = '+' :: digits ∧ WritesNumber digits count) := by
    unfold Numeral.natural?
    split
    · rename_i digits
      rw [digits?_eq_some_iff]
      constructor
      · intro writes
        exact Or.inr ⟨digits, rfl, writes⟩
      · rintro (⟨_, allDigits, _⟩ | ⟨other, same, writes⟩)
        · exact absurd (allDigits '+' List.mem_cons_self) (by decide)
        · cases same
          exact writes
    · rename_i unsigned
      rw [digits?_eq_some_iff]
      constructor
      · exact Or.inl
      · rintro (writes | ⟨digits, same, _⟩)
        · exact writes
        · exact absurd same (unsigned digits)
  rw [Numeral.word64?, Option.filter_eq_some_iff, natural, decide_eq_true_eq]
  exact Iff.rfl

theorem isBlank_of_isDigit {c : Char} (digit : c.isDigit = true) : isBlank c = false := by
  have bounds : 48 ≤ c.toNat ∧ c.toNat ≤ 57 := Char.isDigit_iff_toNat.mp digit
  simp only [isBlank, Bool.or_eq_false_iff, Bool.and_eq_false_iff, decide_eq_false_iff_not,
    beq_eq_false_iff_ne]
  omega

theorem WritesNumber.solid {text : List Char} {number : Nat} (writes : WritesNumber text number) :
    ∀ c ∈ text, isBlank c = false := by
  intro c member
  exact isBlank_of_isDigit (writes.2.1 c member)

theorem WritesCount.isWord {text : List Char} {count : Nat} (writes : WritesCount text count) :
    Text.IsWord isBlank text := by
  rcases writes.1 with number | ⟨digits, rfl, number⟩
  · exact ⟨number.1, number.solid⟩
  · refine ⟨List.cons_ne_nil '+' digits, ?_⟩
    intro c member
    rcases List.mem_cons.mp member with rfl | member
    · rfl
    · exact number.solid c member

/-! ## Headers and the words they consist of -/

theorem words_mark (text : List Char) :
    Text.words isBlank (Header.mark ++ text) = ['p'] :: ['c', 'n', 'f'] :: Text.words isBlank text := by
  have cut : Header.mark ++ text = ['p'] ++ ([' '] ++ (['c', 'n', 'f'] ++ ([' '] ++ text))) := rfl
  have space : ∀ c ∈ [' '], isBlank c = true := by simp [isBlank]
  have spaceEnds : ∀ rest c, ([' '] ++ rest).head? = some c → isBlank c = true := by simp [isBlank]
  have firstSolid : ∀ c ∈ ['p'], isBlank c = false := by simp [isBlank]
  have secondSolid : ∀ c ∈ ['c', 'n', 'f'], isBlank c = false := by simp [isBlank]
  rw [cut, Text.words_word (List.cons_ne_nil _ _) firstSolid (spaceEnds _), Text.words_gap space,
    Text.words_word (List.cons_ne_nil _ _) secondSolid (spaceEnds _), Text.words_gap space]

theorem ofText?_eq_some_iff {text : List Char} {header : Header} :
    Header.ofText? text = some header ↔ ∃ rest variableWord clauseWord,
      text = Header.mark ++ rest ∧ Text.words isBlank rest = [variableWord, clauseWord] ∧
        WritesCount variableWord header.variableCount ∧ WritesCount clauseWord header.clauseCount := by
  unfold Header.ofText?
  split
  · rename_i marked
    rcases List.isPrefixOf_iff_prefix.mp marked with ⟨rest, rfl⟩
    rw [words_mark]
    simp only [List.drop_succ_cons, List.drop_zero]
    split
    · rename_i variableWord clauseWord found
      simp only [Option.bind_eq_bind, Option.bind_eq_some_iff, Option.pure_def, Option.some.injEq,
        word64?_eq_some_iff]
      constructor
      · rintro ⟨variableCount, variableWrites, clauseCount, clauseWrites, rfl⟩
        exact ⟨rest, variableWord, clauseWord, rfl, found, variableWrites, clauseWrites⟩
      · rintro ⟨other, _, _, same, foundOther, variableWrites, clauseWrites⟩
        cases List.append_cancel_left same
        cases found.symm.trans foundOther
        exact ⟨_, variableWrites, _, clauseWrites, rfl⟩
    · rename_i notTwo
      constructor
      · intro impossible
        cases impossible
      · rintro ⟨other, variableWord, clauseWord, same, found, _⟩
        cases List.append_cancel_left same
        exact absurd found (notTwo variableWord clauseWord)
  · rename_i unmarked
    constructor
    · intro impossible
      cases impossible
    · rintro ⟨rest, _, _, rfl, _⟩
      exact absurd (List.isPrefixOf_iff_prefix.mpr (List.prefix_append _ _)) unmarked

theorem WritesHeader.head? {text : List Char} {header : Header} (writes : WritesHeader text header) :
    text.head? = some 'p' := by
  rcases writes with ⟨gap, variableWord, between, clauseWord, ending, rfl, _⟩
  simp [Header.mark]

/-- Reading a trimmed header that begins with its first letter gives what is written. -/
theorem ofText?_trim_eq_some_iff {text : List Char} {header : Header}
    (first : text.head? = some 'p') :
    Header.ofText? (Text.trim isBlank text) = some header ↔ WritesHeader text header := by
  have firstSolid : ∀ c, text.head? = some c → isBlank c = false := by
    intro c atHead
    cases first.symm.trans atHead
    decide
  rw [ofText?_eq_some_iff]
  constructor
  · rintro ⟨rest, variableWord, clauseWord, trimmed, found, variableWrites, clauseWrites⟩
    rcases Text.exists_trim firstSolid with ⟨ending, cut, endingBlank⟩
    rcases (Text.words_eq_pair_iff variableWrites.isWord clauseWrites.isWord).mp found with
      ⟨gap, between, last, rfl, blank, nonempty⟩
    refine ⟨gap, variableWord, between, clauseWord, last ++ ending, ?_, ?_, nonempty,
      variableWrites, clauseWrites⟩
    · rw [cut, trimmed]
      simp only [List.append_assoc]
    · intro c member
      rw [← List.append_assoc] at member
      rcases List.mem_append.mp member with inside | inEnding
      · exact blank c inside
      · exact endingBlank c inEnding
  · rintro ⟨gap, variableWord, between, clauseWord, ending, rfl, blank, nonempty, variableWrites,
      clauseWrites⟩
    have endingBlank : ∀ c ∈ ending, isBlank c = true := fun c member => blank c (by simp [member])
    refine ⟨gap ++ variableWord ++ between ++ clauseWord ++ [], variableWord, clauseWord, ?_, ?_,
      variableWrites, clauseWrites⟩
    · rw [Text.trim_append firstSolid _ endingBlank]
      · simp only [List.append_assoc, List.append_nil]
      · intro c atLast
        rw [List.getLast?_append, List.getLast?_eq_some_getLast clauseWrites.isWord.1,
          Option.some_or] at atLast
        cases atLast
        exact clauseWrites.isWord.2 _ (List.getLast_mem clauseWrites.isWord.1)
    · apply (Text.words_eq_pair_iff variableWrites.isWord clauseWrites.isWord).mpr
      refine ⟨gap, between, [], rfl, ?_, nonempty⟩
      intro c member
      rw [List.append_nil] at member
      exact blank c (List.mem_append_left ending member)

end Dimacs
end UnitPropagation
