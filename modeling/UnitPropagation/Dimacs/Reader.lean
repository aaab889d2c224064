import UnitPropagation.Dimacs.Header
import UnitPropagation.Dimacs.Rejection
import UnitPropagation.Literal

namespace UnitPropagation
namespace Dimacs

/-!
# Reading clauses

A text in the format is read byte by byte, and a byte stands for the character
with its number.  Outside of headers and comments the text is made of nonzero
numerals, which end at white space, and of the digit `0`, which ends a clause and
may be followed by the next item at once.  Clauses may go on over line ends and
over comments.

All that has to be known about the text so far is kept in a `Reader`.  It makes no
difference, therefore, in which pieces a text arrives.
-/

/-- Why reading came to an early end: the text was rejected, or the reader itself
was at fault. -/
inductive Failure where
  | rejected (rejection : Rejection)
  | fault (fault : Fault)
deriving DecidableEq, Repr

def Failure.message : Failure → String
  | rejected reason => reason.message
  | fault reason => reason.message

/-- The place in a text which a reader has come to, with the characters of the header or the numeral
that is being read.  At the start of a line nothing but white space was read on it, and in a clause
the place is between items, on a line which has some.  Behind a failure nothing is read any more. -/
inductive Mode where
  | lineStart
  | header (text : Array Char)
  | comment
  | minus
  | numeral (text : Array Char)
  | inClause
  | failed (failure : Failure)
deriving DecidableEq

/-- What is known about a text after some of its bytes: the header if there was one, the literals
of the clause that has not ended yet, and the clauses that have ended. -/
structure Reader where
  header? : Option Header
  pending : Array Literal
  clauses : Array (List Literal)
  mode : Mode

/-- The clauses of a text, as they stand in it, over the declared variables. -/
structure Content where
  variableCount : Nat
  clauses : List (List Literal)
deriving DecidableEq

/-- White space between items.  The vertical tab is none, though it is a blank in a header. -/
def isSpace (c : Char) : Bool :=
  c = ' ' || c = '\t' || c = '\n' || c = '\x0C' || c = '\r'

def isLeadingDigit (c : Char) : Bool :=
  c.isDigit && c ≠ '0'

namespace Reader

def start : Reader where
  header? := none
  pending := #[]
  clauses := #[]
  mode := .lineStart

def goTo (reader : Reader) (mode : Mode) : Reader :=
  { reader with mode }

def reject (reader : Reader) (rejection : Rejection) : Reader :=
  reader.goTo (.failed (.rejected rejection))

/-- Ends a header.  A second header is refused whatever it says. -/
def endHeader (reader : Reader) (text : Array Char) : Reader :=
  match reader.header? with
  | some _ => reader.reject .duplicateHeader
  | none =>
    let trimmed := Text.trim isBlank text.toList
    match Header.ofText? trimmed with
    | some header => { reader with header? := some header, mode := .lineStart }
    | none => reader.reject (.invalidHeader (String.ofList trimmed))

/-- Ends a numeral, whose literal is the next one of the clause, and goes on in the given mode. -/
def endNumeral (reader : Reader) (text : Array Char) (next : Mode) : Reader :=
  match reader.header? with
  | none => reader.reject .missingHeader
  | some header =>
    let invalid := Rejection.invalidLiteral (String.ofList text.toList)
    match Numeral.int32? text.toList with
    | none => reader.reject invalid
    | some code =>
      if code = -2147483648 then reader.reject invalid
      else if header.variableCount < code.natAbs then
        reader.reject (.variableOutOfRange code header.variableCount)
      else
        match Literal.ofCode code with
        | .ok literal => { reader with pending := reader.pending.push literal, mode := next }
        | .error fault => reader.goTo (.failed (.fault fault))

/-- Ends a clause, for which there has to be a header.  The clause may be empty. -/
def endClause (reader : Reader) : Reader :=
  match reader.header? with
  | none => reader.reject .missingHeader
  | some _ =>
    { reader with
      pending := #[]
      clauses := reader.clauses.push reader.pending.toList
      mode := .inClause }

def beginItem (reader : Reader) (c : Char) : Reader :=
  if c = '0' then reader.endClause
  else if isLeadingDigit c then reader.goTo (.numeral #[c])
  else if c = '-' then reader.goTo .minus
  else reader.reject (.unexpectedCharacter c)

def step (reader : Reader) (c : Char) : Reader :=
  match reader.mode with
  | .lineStart =>
    if isSpace c then reader
    else if c = 'p' then reader.goTo (.header #[c])
    else if c = 'c' then reader.goTo .comment
    else reader.beginItem c
  | .header text => if c = '\n' then reader.endHeader text else reader.goTo (.header (text.push c))
  | .comment => if c = '\n' then reader.goTo .lineStart else reader
  | .minus =>
    if isLeadingDigit c then reader.goTo (.numeral #['-', c])
    else reader.reject (.unexpectedCharacter c)
  | .numeral text =>
    if c = '\n' then reader.endNumeral text .lineStart
    else if isSpace c then reader.endNumeral text .inClause
    else if c.isDigit then reader.goTo (.numeral (text.push c))
    else reader.reject (.unexpectedCharacter c)
  | .inClause =>
    if c = '\n' then reader.goTo .lineStart
    else if isSpace c then reader
    else reader.beginItem c
  | .failed _ => reader

def read (reader : Reader) (bytes : List UInt8) : Reader :=
  bytes.foldl (fun reader byte => reader.step (Char.ofUInt8 byte)) reader

/-- It makes no difference whether bytes are read at once or in two pieces. -/
@[simp]
theorem read_append (reader : Reader) (bytes more : List UInt8) :
    reader.read (bytes ++ more) = (reader.read bytes).read more := by
  simp [read]

@[simp]
theorem read_nil (reader : Reader) : reader.read [] = reader :=
  rfl

/-- The content of a text which ends between two items. -/
def content (reader : Reader) : Except Failure Content :=
  match reader.header? with
  | none => .error (.rejected .missingHeader)
  | some header =>
    if !reader.pending.isEmpty then .error (.rejected .unterminatedClause)
    else if header.clauseCount ≠ reader.clauses.size then
      .error (.rejected (.clauseCount header.clauseCount reader.clauses.size))
    else .ok { variableCount := header.variableCount, clauses := reader.clauses.toList }

def finish (reader : Reader) : Except Failure Content :=
  match reader.mode with
  | .failed failure => .error failure
  | .minus | .numeral _ => .error (.rejected .unterminatedClause)
  | .header text =>
    let ended := reader.endHeader text
    match ended.mode with
    | .failed failure => .error failure
    | _ => ended.content
  | .lineStart | .comment | .inClause => reader.content

end Reader

end Dimacs
end UnitPropagation
