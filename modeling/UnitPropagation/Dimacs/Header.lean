import UnitPropagation.Numeral
import UnitPropagation.Text

namespace UnitPropagation
namespace Dimacs

/-!
# Headers

The header of a text declares the numbers of variables and of clauses, as in
`p cnf 5 3`.
-/

structure Header where
  variableCount : Nat
  clauseCount : Nat
deriving DecidableEq, Repr

/-- White space among the characters below `U+0100`: tab to carriage return, the
space, the next-line control and the space without a break. -/
def isBlank (c : Char) : Bool :=
  (9 ≤ c.toNat && c.toNat ≤ 13) || c.toNat == 32 || c.toNat == 0x85 || c.toNat == 0xA0

def Header.mark : List Char :=
  ['p', ' ', 'c', 'n', 'f', ' ']

/-- The header written by a text without blanks at its ends.  What stands between the mark and the
numbers, and between the numbers, are blanks only. -/
def Header.ofText? (text : List Char) : Option Header :=
  if Header.mark.isPrefixOf text then
    match (Text.words isBlank text).drop 2 with
    | [variableWord, clauseWord] => do
      let variableCount ← Numeral.word64? variableWord
      let clauseCount ← Numeral.word64? clauseWord
      return { variableCount, clauseCount }
    | _ => none
  else none

end Dimacs
end UnitPropagation
