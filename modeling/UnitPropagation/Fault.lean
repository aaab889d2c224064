namespace UnitPropagation

/-!
# Faults

A fault is a use of the library outside its contract: a number that encodes no
literal, a key without a row, a clause visited for a literal which it does not
watch.  Operations with a contract answer in `Except Fault`, so that "this never
happens" is a statement about their results.  Faults are not to be confused with
conflicts, which are findings about a formula.
-/

/-- The ways of leaving the contract of an operation.  Zero and the least number of 32 bits, which
has no negation, are codes of no literal, and neither are numbers whose variable is too large.
Clauses run out of numbers, and a row may be asked for at or behind the end of a sequence of `size`
rows.  Where it is refused, a clause mentions a variable twice.  Units are assumed while earlier
ones still wait for their propagation.  The others are about watches: a clause is visited for a
literal which is not among its two watched ones or while no literal watches it, or it is to be
watched by one literal twice. -/
inductive Fault where
  | zeroCode
  | lowestCode
  | variableRange
  | clauseCount
  | outOfRange (size index : Nat)
  | repeatedVariable
  | waitingUnits
  | strayVisit (clause : Nat) (literal : Int)
  | idleVisit (clause : Nat) (literal : Int)
  | doubleWatch
deriving DecidableEq, Repr

namespace Fault

def message : Fault → String
  | zeroCode => "0 does not encode a literal"
  | lowestCode => "i32::MIN does not encode a literal"
  | variableRange =>
    "variable indices are limited to the range of i32: TryFromIntError(PosOverflow)"
  | clauseCount =>
    "the number of clauses is limited to u32::MAX: TryFromIntError(PosOverflow)"
  | outOfRange size index => s!"index out of bounds: the len is {size} but the index is {index}"
  | repeatedVariable => "a variable occurs more than once in a clause"
  | waitingUnits => "units can only be added once all previous units are propagated"
  | strayVisit clause literal =>
    s!"clause {clause} is visited for {literal} which it does not watch"
  | idleVisit clause literal => s!"clause {clause} is visited for {literal} but is not watched"
  | doubleWatch => "a clause is watched by two distinct literals"

end Fault

end UnitPropagation
