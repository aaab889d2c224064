import UnitPropagation.Dimacs.Instance

namespace UnitPropagation
namespace Dimacs

/-!
# Deliveries

Large texts are not kept, and neither are their clauses as they stand.  A clause is delivered
to a receiver as soon as it has ended, and the receiver makes of it what it likes: it keeps the
numbers, or it prepares an instance.  Until then a clause is a list of numbers, collected while
one buffer serves for headers and numerals in turn.

Some steps of a delivery rely on others.  A numeral is not expected to be zero, a receiver is
not expected to be there without a header, and a number in a clause is expected to be the code
of a literal.  A delivery which is let down in this way has a lapse.  A lapse is no rejection:
it says nothing about the text.
-/

/-- A number of 32 bits which is not zero.  It need not be the code of a literal, as the least
number of 32 bits is among them. -/
structure Code where
  value : Int
  value_ne_zero : value ≠ 0
  lower : -2147483648 ≤ value
  upper : value < 2147483648

namespace Code

theorem ext_value {first second : Code} (values : first.value = second.value) : first = second := by
  cases first
  cases second
  simpa using values

instance : DecidableEq Code :=
  fun first second => decidable_of_iff (first.value = second.value) ⟨ext_value, congrArg value⟩

def ofInt? (value : Int) : Option Code :=
  if bounds : value ≠ 0 ∧ -2147483648 ≤ value ∧ value < 2147483648 then
    some ⟨value, bounds.1, bounds.2.1, bounds.2.2⟩
  else none

end Code

/-! ## What is done with the clauses of a text -/

/-- What is done with the clauses of a text, one after the other.  It begins with a state over the
declared number of variables, takes one clause at a time, about which it may have something to
report, and makes a result of the state behind the last clause. -/
structure Receiver (State Result : Type) where
  empty : Nat → State
  take : State → List Code → Except Fault (State × List Log.Record)
  result : State → Result

namespace Receiver

/-- Keeps the numbers of all clauses as they stand in the text. -/
def raw : Receiver (Array (List Int)) (List (List Int)) where
  empty _ := #[]
  take clauses codes := .ok (clauses.push (codes.map Code.value), [])
  result clauses := clauses.toList

/-- Collects the distinct literals of a clause, until one meets its negation. -/
def collect (kept : List Literal) : List Code → Except Fault (Option (List Literal))
  | [] => .ok (some kept)
  | code :: codes => do
    let literal ← Literal.ofCode code.value
    match keep? kept literal with
    | none => return none
    | some more => collect more codes

def skipRecord (codes : List Code) : Log.Record where
  level := .debug
  message := "Skipping tautological clause (" ++
    " ".intercalate (codes.map fun code => toString code.value) ++ ")"

/-- Prepares an instance.  A clause with a literal and its negation is reported and not made part of
it. -/
def prepared : Receiver Instance Instance where
  empty variableCount := { variableCount, clauses := [] }
  take problem codes := do
    match ← collect [] codes with
    | none => return (problem, [skipRecord codes])
    | some literals => return ({ problem with clauses := problem.clauses ++ [literals] }, [])
  result problem := problem

end Receiver

/-- The ways in which the steps of a delivery can let each other down.  The numeral of a literal was
zero, there was a receiver without a header, or the receiver could not take a clause. -/
inductive Lapse where
  | zeroNumeral
  | headerLost
  | fault (fault : Fault)
deriving DecidableEq, Repr

/-- Why a delivery comes to nothing.  Either the text is rejected, or the delivery itself has a
lapse. -/
inductive Mishap where
  | rejected (rejection : Rejection)
  | lapse (lapse : Lapse)
deriving DecidableEq, Repr

/-- A reader which is at fault has a lapse, too. -/
def Failure.mishap : Failure → Mishap
  | rejected reason => .rejected reason
  | fault reason => .lapse (.fault reason)

/-! ## The state of a delivery and its steps -/

/-- The place in a text which a delivery has come to.  At `lineStart` nothing but white space was
read on the line.  At `header`, `minus` and `numeral` the buffer has what was read so far of a
header or of a numeral, and at `inClause` the place is between items, on a line which has some. -/
inductive Stage where
  | lineStart
  | header
  | comment
  | minus
  | numeral
  | inClause
deriving DecidableEq, Repr

/-- What is kept of a text after some of its bytes.  The receiver has a state as soon as it has been
set up, which the header does.  The numbers of the clause that has not ended yet are pending, those
which have ended are counted, and what the receiver has reported about them is the log. -/
structure Delivery (State : Type) where
  receiver? : Option State
  header? : Option Header
  buffer : Array Char
  pending : Array Code
  stage : Stage
  delivered : Nat
  log : List Log.Record
deriving DecidableEq

namespace Delivery

variable {State Result : Type} (receiver : Receiver State Result)

def start : Delivery State where
  receiver? := none
  header? := none
  buffer := #[]
  pending := #[]
  stage := .lineStart
  delivered := 0
  log := []

def goTo (delivery : Delivery State) (stage : Stage) (buffer : Array Char) : Delivery State :=
  { delivery with stage, buffer }

/-- Ends a header and sets up the receiver.  Blanks at either end of the header are cut off
before. -/
def endHeader (delivery : Delivery State) : Except Mishap (Delivery State) :=
  match delivery.header? with
  | some _ => .error (.rejected .duplicateHeader)
  | none =>
    let trimmed := Text.trim isBlank delivery.buffer.toList
    match Header.ofText? trimmed with
    | none => .error (.rejected (.invalidHeader (String.ofList trimmed)))
    | some header =>
      .ok { delivery with
        receiver? := some (receiver.empty header.variableCount)
        header? := some header
        stage := .lineStart }

/-- Ends a numeral, whose number is the next one of the clause.  The number is checked against the
header before it becomes a code. -/
def endNumeral (delivery : Delivery State) (next : Stage) : Except Mishap (Delivery State) :=
  match delivery.header? with
  | none => .error (.rejected .missingHeader)
  | some header =>
    let invalid := Rejection.invalidLiteral (String.ofList delivery.buffer.toList)
    match Numeral.int32? delivery.buffer.toList with
    | none => .error (.rejected invalid)
    | some number =>
      if number = -2147483648 then .error (.rejected invalid)
      else if header.variableCount < number.natAbs then
        .error (.rejected (.variableOutOfRange number header.variableCount))
      else
        match Code.ofInt? number with
        | none => .error (.lapse .zeroNumeral)
        | some code => .ok { delivery with pending := delivery.pending.push code, stage := next }

/-- Ends a clause and delivers it.  Without a header there is no receiver yet to which it could
go. -/
def endClause (delivery : Delivery State) : Except Mishap (Delivery State) :=
  match delivery.receiver? with
  | none => .error (.rejected .missingHeader)
  | some state =>
    match receiver.take state delivery.pending.toList with
    | .error fault => .error (.lapse (.fault fault))
    | .ok (next, records) =>
      .ok { delivery with
        receiver? := some next
        pending := #[]
        stage := .inClause
        delivered := delivery.delivered + 1
        log := delivery.log ++ records }

def beginItem (delivery : Delivery State) (c : Char) : Except Mishap (Delivery State) :=
  if c = '0' then delivery.endClause receiver
  else if isLeadingDigit c then .ok (delivery.goTo .numeral #[c])
  else if c = '-' then .ok (delivery.goTo .minus #[c])
  else .error (.rejected (.unexpectedCharacter c))

def step (delivery : Delivery State) (c : Char) : Except Mishap (Delivery State) :=
  match delivery.stage with
  | .lineStart =>
    if isSpace c then .ok delivery
    else if c = 'p' then .ok (delivery.goTo .header #[c])
    else if c = 'c' then .ok (delivery.goTo .comment delivery.buffer)
    else delivery.beginItem receiver c
  | .header =>
    if c = '\n' then delivery.endHeader receiver
    else .ok (delivery.goTo .header (delivery.buffer.push c))
  | .comment => if c = '\n' then .ok (delivery.goTo .lineStart delivery.buffer) else .ok delivery
  | .minus =>
    if isLeadingDigit c then .ok (delivery.goTo .numeral (delivery.buffer.push c))
    else .error (.rejected (.unexpectedCharacter c))
  | .numeral =>
    if c = '\n' then delivery.endNumeral .lineStart
    else if isSpace c then delivery.endNumeral .inClause
    else if c.isDigit then .ok (delivery.goTo .numeral (delivery.buffer.push c))
    else .error (.rejected (.unexpectedCharacter c))
  | .inClause =>
    if c = '\n' then .ok (delivery.goTo .lineStart delivery.buffer)
    else if isSpace c then .ok delivery
    else delivery.beginItem receiver c

/-- A mishap and the delivery in front of it. -/
structure Interruption (State : Type) where
  mishap : Mishap
  before : Delivery State
deriving DecidableEq

def readByte (delivery : Delivery State) (byte : UInt8) :
    Except (Interruption State) (Delivery State) :=
  (delivery.step receiver (Char.ofUInt8 byte)).mapError fun mishap => { mishap, before := delivery }

/-- Reads bytes, up to the first mishap. -/
def read (delivery : Delivery State) (bytes : List UInt8) :
    Except (Interruption State) (Delivery State) :=
  bytes.foldlM (readByte receiver) delivery

/-- Ends a header for which there was no line feed; a numeral cannot be ended like that. -/
def endText (delivery : Delivery State) : Except Mishap (Delivery State) :=
  match delivery.stage with
  | .header => delivery.endHeader receiver
  | .minus | .numeral => .error (.rejected .unterminatedClause)
  | .lineStart | .comment | .inClause => .ok delivery

/-- What the receiver has made of a text that ends between two items. -/
def result (delivery : Delivery State) : Except Mishap Result :=
  match delivery.receiver? with
  | none => .error (.rejected .missingHeader)
  | some state =>
    match delivery.header? with
    | none => .error (.lapse .headerLost)
    | some header =>
      if !delivery.pending.isEmpty then .error (.rejected .unterminatedClause)
      else if header.clauseCount ≠ delivery.delivered then
        .error (.rejected (.clauseCount header.clauseCount delivery.delivered))
      else .ok (receiver.result state)

def finish (delivery : Delivery State) : Except Mishap Result := do
  let ended ← delivery.endText receiver
  ended.result receiver

end Delivery

/-- What came of a delivery: the result or the mishap, and in either case the log. -/
structure Receipt (Result : Type) where
  result : Except Mishap Result
  log : List Log.Record

variable {State Result : Type} (receiver : Receiver State Result)

def Delivery.Interruption.receipt (interruption : Interruption State) : Receipt Result where
  result := .error interruption.mishap
  log := interruption.before.log

/-- The receipt behind the last byte, where the text ends or the source breaks. -/
def Delivery.receipt (broken : Bool) (delivery : Delivery State) : Receipt Result where
  result := if broken then .error (.rejected .unreadable) else delivery.finish receiver
  log := delivery.log

/-- Delivers pieces, as long as there is no mishap.  An empty piece is the end of the text. -/
def Delivery.receive (broken : Bool) : List (List UInt8) → Delivery State → Receipt Result
  | [], delivery => delivery.receipt receiver broken
  | piece :: pieces, delivery =>
    if piece = [] then delivery.receipt receiver false
    else
      match delivery.read receiver piece with
      | .ok next => receive broken pieces next
      | .error interruption => interruption.receipt

/-- Delivers what a source hands out, beginning before the first byte. -/
def Source.deliver (source : Source) : Receipt Result :=
  Delivery.start.receive receiver source.broken source.pieces

end Dimacs
end UnitPropagation
