import UnitPropagation.Dimacs.Reader

namespace UnitPropagation
namespace Dimacs

/-!
# Sources

A source hands out the bytes of a text piece by piece.  It may break, and then the
text is rejected as unreadable unless what was handed out before is reason enough
to reject it.
-/

/-- The pieces which a source hands out, and whether it breaks behind the last of them. -/
structure Source where
  pieces : List (List UInt8)
  broken : Bool
deriving DecidableEq

namespace Source

def ofBytes (bytes : List UInt8) : Source where
  pieces := [bytes]
  broken := false

def bytes (source : Source) : List UInt8 :=
  source.pieces.flatten

def read (source : Source) : Reader :=
  source.pieces.foldl Reader.read .start

/-- The pieces do not matter, but only the bytes. -/
theorem read_eq (source : Source) : source.read = Reader.start.read source.bytes := by
  have general : ∀ (pieces : List (List UInt8)) (reader : Reader),
      pieces.foldl Reader.read reader = reader.read pieces.flatten := by
    intro pieces
    induction pieces with
    | nil => intro reader; rfl
    | cons piece pieces ih =>
      intro reader
      simp [ih]
  exact general source.pieces .start

end Source

/-- What came of reading a source: its content or the reason why there is none, and in
either case the clauses which were complete. -/
structure Outcome where
  result : Except Failure Content
  clauses : List (List Literal)

/-- The result of reading a source.  A source which breaks is unreadable, unless the text was
rejected before. -/
def Source.result (source : Source) : Except Failure Content :=
  if source.broken then
    match source.read.mode with
    | .failed failure => .error failure
    | _ => .error (.rejected .unreadable)
  else source.read.finish

def Source.outcome (source : Source) : Outcome where
  result := source.result
  clauses := source.read.clauses.toList

end Dimacs
end UnitPropagation
