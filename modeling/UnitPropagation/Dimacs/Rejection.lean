namespace UnitPropagation
namespace Dimacs

/-!
# Rejections

A text is rejected for the first reason that shows when it is read from the front.
-/

/-- The reasons for rejecting a text.  A text is unreadable if it could not be obtained up to its
end, and its header is missing if data or the end of the text come first.  An invalid literal is a
numeral which is too long for a literal; the variable of a literal may also be out of the declared
range.  Of the last clause the end can be missing, and the number of clauses may be another one than
the header says. -/
inductive Rejection where
  | unreadable
  | missingHeader
  | invalidHeader (text : String)
  | duplicateHeader
  | unexpectedCharacter (character : Char)
  | invalidLiteral (text : String)
  | variableOutOfRange (code : Int) (variableCount : Nat)
  | unterminatedClause
  | clauseCount (expected parsed : Nat)
deriving DecidableEq, Repr

def Rejection.message : Rejection → String
  | unreadable => "failed to read file"
  | missingHeader => "missing dimacs header"
  | invalidHeader text => s!"'{text}' is an invalid header"
  | duplicateHeader => "multiple dimacs headers found"
  | unexpectedCharacter character => s!"unexpected character '{character}'"
  | invalidLiteral text => s!"'{text}' is an invalid DIMACS literal"
  | variableOutOfRange code variableCount =>
    s!"literal {code} refers to a variable outside of the {variableCount} declared variables"
  | unterminatedClause => "the last clause in the source is not terminated with a '0'"
  | clauseCount expected parsed => s!"expected to parse {expected} clauses, but parsed {parsed}"

end Dimacs
end UnitPropagation
