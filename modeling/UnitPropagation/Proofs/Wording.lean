import UnitPropagation.Dimacs.Instance
import UnitPropagation.Propagator.Event

namespace UnitPropagation

/-!
# Wordings

Whatever is said about clauses, conflicts and events is made of fixed words and of
numbers, so that it fits into a line.  A rejection may moreover quote from the text that
was rejected.
-/

@[simp]
theorem unbroken_append {first second : String} :
    Unbroken (first ++ second) ↔ Unbroken first ∧ Unbroken second := by
  simp [Unbroken]

@[simp]
theorem unbroken_ofList {text : List Char} : Unbroken (String.ofList text) ↔ '\n' ∉ text := by
  simp [Unbroken]

theorem unbroken_intercalate {separator : String} {texts : List String}
    (separator_unbroken : Unbroken separator) (texts_unbroken : ∀ text ∈ texts, Unbroken text) :
    Unbroken (separator.intercalate texts) := by
  induction texts with
  | nil => simp [Unbroken]
  | cons text texts ih =>
      rcases List.forall_mem_cons.mp texts_unbroken with ⟨first, others⟩
      cases texts with
      | nil => simpa using first
      | cons next texts => simp [String.intercalate_cons_cons, first, separator_unbroken, ih others]

theorem isDigit_of_mem_repr {number : Nat} : ∀ c ∈ number.repr.toList, c.isDigit = true := by
  rw [Nat.toList_repr]
  exact fun _ member => Nat.isDigit_of_mem_toDigits (by decide) (by decide) member

@[simp]
theorem unbroken_nat (number : Nat) : Unbroken number.repr := by
  intro member
  exact absurd (isDigit_of_mem_repr _ member) (by decide)

@[simp]
theorem unbroken_int (number : Int) : Unbroken number.repr := by
  rw [Int.repr_eq_if]
  split <;> simp +decide

@[simp]
theorem Literal.unbroken_text (literal : Literal) : Unbroken literal.text := by
  simp [text]

@[simp]
theorem Conflict.unbroken_message (conflict : Conflict) : Unbroken conflict.message := by
  cases conflict with
  | inconsistentState => decide
  | emptyClause | complementaryUnit | falsifiedClause =>
      dsimp only [message, toString]
      simp only [unbroken_append, unbroken_nat, Literal.unbroken_text]
      simp [Unbroken]

@[simp]
theorem Event.unbroken_message (event : Event) : Unbroken event.message := by
  cases event <;> dsimp only [message, toString] <;>
    simp only [unbroken_append, unbroken_nat, Literal.unbroken_text, Conflict.unbroken_message] <;>
    simp [Unbroken]

theorem Literal.unbroken_intercalate_text (clause : List Literal) :
    Unbroken (" ".intercalate (clause.map Literal.text)) := by
  apply unbroken_intercalate (by decide)
  simp

theorem Dimacs.unbroken_skipRecord (clause : List Literal) :
    Unbroken (skipRecord clause).message := by
  have words := Literal.unbroken_intercalate_text clause
  exact unbroken_append.mpr ⟨unbroken_append.mpr ⟨by decide, words⟩, by decide⟩

namespace Dimacs

/-- What the wording of a rejection takes from the text that was rejected. -/
def Rejection.quoted : Rejection → String
  | invalidHeader text | invalidLiteral text => text
  | unexpectedCharacter character => toString character
  | unreadable | missingHeader | duplicateHeader | variableOutOfRange _ _ | unterminatedClause
  | clauseCount _ _ => ""

theorem Rejection.unbroken_message {rejection : Rejection} (quoted : Unbroken rejection.quoted) :
    Unbroken rejection.message := by
  cases rejection with
  | unreadable | missingHeader | duplicateHeader | unterminatedClause => decide
  | variableOutOfRange | clauseCount =>
      dsimp only [message, toString]
      simp only [unbroken_append, unbroken_nat, unbroken_int]
      simp [Unbroken]
  | invalidHeader | invalidLiteral | unexpectedCharacter =>
      exact unbroken_append.mpr ⟨unbroken_append.mpr ⟨by decide, quoted⟩, by decide⟩

end Dimacs

end UnitPropagation
