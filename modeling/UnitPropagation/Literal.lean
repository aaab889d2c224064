import Std.Data.TreeSet.Lemmas
import UnitPropagation.Fault

namespace UnitPropagation

/-!
# Variables and literals

A literal is a variable or its negation.  It is written as a nonzero integer: the
number of its variable, with a minus sign if it is negated.  The variables of
literals have numbers of at most 31 bits.

Literals are ordered by their variable, and of the two literals of one variable
the positive one comes first.
-/

/-- A positive number of at most 32 bits.  The upper half of them are the variables of no literal,
since the code of a literal is signed. -/
structure Variable where
  index : Nat
  index_pos : 0 < index
  index_lt : index < 4294967296
deriving DecidableEq

namespace Variable

def ofIndex? (index : Nat) : Option Variable :=
  if bounds : 0 < index ∧ index < 4294967296 then some ⟨index, bounds.1, bounds.2⟩ else none

instance : Ord Variable where
  compare first second := compare first.index second.index

/-- A variable is written as its number. -/
def text (v : Variable) : String :=
  toString v.index

end Variable

/-- A literal, given by its integer code.  The code has 32 bits, and so has its negation. -/
structure Literal where
  code : Int
  code_ne_zero : code ≠ 0
  natAbs_code_lt : code.natAbs < 2147483648
deriving DecidableEq

namespace Literal

theorem ext_code {first second : Literal} (codes : first.code = second.code) : first = second := by
  cases first
  cases second
  simpa using codes

/-- The literal with the given code.  Zero and the least number of 32 bits are
not codes; other numbers of more than 31 bits are reported like a variable
which is too large. -/
def ofCode (code : Int) : Except Fault Literal :=
  if zero : code = 0 then .error .zeroCode
  else if code = -2147483648 then .error .lowestCode
  else if bound : code.natAbs < 2147483648 then .ok ⟨code, zero, bound⟩
  else .error .variableRange

@[simp]
theorem ofCode_code (literal : Literal) : ofCode literal.code = .ok literal := by
  have nonzero := literal.code_ne_zero
  have bound := literal.natAbs_code_lt
  have notLowest : literal.code ≠ -2147483648 := by omega
  rw [ofCode, dif_neg nonzero, if_neg notLowest, dif_pos bound]

/-- Reading succeeds with the literal that has the code which was read. -/
theorem ofCode_eq_ok_iff {code : Int} {literal : Literal} :
    ofCode code = .ok literal ↔ literal.code = code := by
  constructor
  · intro read
    unfold ofCode at read
    split at read
    · cases read
    · split at read
      · cases read
      · split at read
        · cases read
          rfl
        · cases read
  · rintro rfl
    exact ofCode_code literal

def ofCodes (codes : List Int) : Except Fault (List Literal) :=
  codes.mapM ofCode

/-- A literal is written as its code. -/
def text (literal : Literal) : String :=
  toString literal.code

def var (literal : Literal) : Variable where
  index := literal.code.natAbs
  index_pos := Int.natAbs_pos.mpr literal.code_ne_zero
  index_lt := Nat.lt_trans literal.natAbs_code_lt (by decide)

def isPositive (literal : Literal) : Bool :=
  0 < literal.code

def isNegative (literal : Literal) : Bool :=
  literal.code < 0

/-- The literal of a variable with the given polarity; a variable of 32 bits has none. -/
def ofVariable (v : Variable) (positive : Bool) : Except Fault Literal :=
  if bound : v.index < 2147483648 then
    have pos := v.index_pos
    .ok {
      code := if positive then v.index else -v.index
      code_ne_zero := by split <;> omega
      natAbs_code_lt := by split <;> omega
    }
  else .error .variableRange

instance : Neg Literal where
  neg literal := {
    code := -literal.code
    code_ne_zero := by have := literal.code_ne_zero; omega
    natAbs_code_lt := by have := literal.natAbs_code_lt; omega
  }

@[simp]
theorem code_neg (literal : Literal) : (-literal).code = -literal.code :=
  rfl

@[simp]
protected theorem neg_neg (literal : Literal) : - -literal = literal :=
  ext_code (Int.neg_neg literal.code)

theorem neg_ne_self (literal : Literal) : -literal ≠ literal := by
  intro same
  have codes := congrArg Literal.code same
  have := literal.code_ne_zero
  simp only [code_neg] at codes
  omega

@[simp]
theorem var_neg (literal : Literal) : (-literal).var = literal.var := by
  simp [var]

/-- The place of a literal in the order of all literals.  Every variable has two places, the first
of which belongs to the positive literal. -/
def rank (literal : Literal) : Nat :=
  2 * literal.code.natAbs + if literal.code < 0 then 1 else 0

theorem rank_injective {first second : Literal} (ranks : first.rank = second.rank) :
    first = second := by
  apply ext_code
  simp only [rank] at ranks
  split at ranks <;> split at ranks <;> omega

theorem rank_lt (literal : Literal) : literal.rank < 4294967296 := by
  have bound := literal.natAbs_code_lt
  simp only [rank]
  split <;> omega

instance : Ord Literal where
  compare first second := compare first.rank second.rank

instance : Std.TransOrd Literal where
  eq_swap := by
    intro first second
    exact Std.OrientedOrd.eq_swap (α := Nat)
  isLE_trans := by
    intro first second third
    exact Std.TransOrd.isLE_trans (α := Nat)

instance : Std.LawfulEqOrd Literal where
  compare_self := by
    intro literal
    exact Std.ReflOrd.compare_self (α := Nat)
  eq_of_compare := by
    intro first second same
    exact rank_injective (Std.LawfulEqOrd.eq_of_compare (α := Nat) same)

/-- Increasing numbers between two bounds are at most as many as fit in between. -/
private theorem length_add_le_of_increasing {numbers : List Nat} {bound : Nat} :
    ∀ {start : Nat}, start ≤ bound → numbers.Pairwise (· < ·) →
      (∀ number ∈ numbers, start ≤ number ∧ number < bound) →
      start + numbers.length ≤ bound := by
  induction numbers with
  | nil => intro start le _ _; simpa using le
  | cons head tail ih =>
    intro start _ increasing between
    rw [List.pairwise_cons] at increasing
    have headBetween := between head List.mem_cons_self
    have tailLength := ih headBetween.2 increasing.2 fun number member =>
      ⟨increasing.1 number member, (between number (List.mem_cons_of_mem _ member)).2⟩
    simp only [List.length_cons]
    omega

/-- There are fewer than 4294967296 literals, so no set of them is larger. -/
theorem size_le (literals : Std.TreeSet Literal) : literals.size ≤ 4294967296 := by
  have ordered : literals.toList.Pairwise fun first second => compare first second = .lt :=
    Std.TreeSet.ordered_toList
  have increasing : (literals.toList.map rank).Pairwise (· < ·) :=
    List.pairwise_map.mpr (ordered.imp fun order => Nat.compare_eq_lt.mp order)
  have length := length_add_le_of_increasing (Nat.zero_le 4294967296) increasing (by
    intro number member
    obtain ⟨literal, _, rfl⟩ := List.mem_map.mp member
    exact ⟨Nat.zero_le _, rank_lt literal⟩)
  simpa using length

end Literal

end UnitPropagation
