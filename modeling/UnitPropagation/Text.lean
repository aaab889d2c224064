namespace UnitPropagation

/-!
# Cutting text

A text is cut at its separators.  Between `n` separators there are `n + 1` pieces,
some of which may be empty; the others are words.
-/

/-- Whether a text has no line feed, so that it does not break the line on which it is printed. -/
def Unbroken (text : String) : Prop :=
  '\n' ∉ text.toList

instance (text : String) : Decidable (Unbroken text) :=
  inferInstanceAs (Decidable ('\n' ∉ text.toList))

namespace Text

/-- The pieces of a text between its separators.  Separators at the ends of the text or next to each
other have empty pieces beside them. -/
def split (isSeparator : Char → Bool) : List Char → List (List Char)
  | [] => [[]]
  | c :: text =>
    if isSeparator c then [] :: split isSeparator text
    else (split isSeparator text).modifyHead (c :: ·)

def words (isSeparator : Char → Bool) (text : List Char) : List (List Char) :=
  (split isSeparator text).filter fun piece => !piece.isEmpty

/-- The text without the separators at its ends. -/
def trim (isSeparator : Char → Bool) (text : List Char) : List Char :=
  ((text.dropWhile isSeparator).reverse.dropWhile isSeparator).reverse

theorem split_cons_separator {isSeparator : Char → Bool} {c : Char} (separates : isSeparator c)
    (text : List Char) : split isSeparator (c :: text) = [] :: split isSeparator text := by
  rw [split, if_pos separates]

/-- There is at least one piece, to which a character is added that separates nothing. -/
theorem exists_split_eq_cons (isSeparator : Char → Bool) (text : List Char) :
    ∃ piece pieces, split isSeparator text = piece :: pieces := by
  induction text with
  | nil => exact ⟨[], [], rfl⟩
  | cons c text ih =>
    obtain ⟨piece, pieces, cut⟩ := ih
    unfold split
    split
    · exact ⟨[], _, rfl⟩
    · exact ⟨c :: piece, pieces, by rw [cut, List.modifyHead_cons]⟩

/-- A separator cuts a text into two, each of which is cut by itself. -/
theorem split_append_separator {isSeparator : Char → Bool} {c : Char}
    (separates : isSeparator c = true) (front text : List Char) :
    split isSeparator (front ++ c :: text) = split isSeparator front ++ split isSeparator text := by
  induction front with
  | nil => exact split_cons_separator separates text
  | cons d front ih =>
    obtain ⟨piece, pieces, cut⟩ := exists_split_eq_cons isSeparator front
    rw [List.cons_append, split, split, ih, cut]
    split <;> rfl

theorem split_of_solid {isSeparator : Char → Bool} {text : List Char}
    (solid : ∀ c ∈ text, isSeparator c = false) : split isSeparator text = [text] := by
  induction text with
  | nil => rfl
  | cons c text ih =>
    rw [split, solid c List.mem_cons_self, ih fun d member => solid d (List.mem_cons_of_mem c member)]
    rfl

end Text

end UnitPropagation
