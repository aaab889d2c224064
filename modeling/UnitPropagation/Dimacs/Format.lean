import UnitPropagation.Dimacs.Reader

namespace UnitPropagation
namespace Dimacs

/-!
# The format

What a text in the format looks like is said here without regard to how it is read.
A text is cut into lines, each of which keeps the line feed at its end; only the
last line has none.  A line is blank, a comment, a header, or data, and data are
items with white space around them.  The lines of a text are `Arranged` if one header
stands before all data and the items keep what it promises.

Since a numeral has to be followed by white space, the last line of a text cannot end
with a numeral.  The item `0` needs nothing to follow it.
-/

/-- Whether the text consists of digits, at least one, which write the number. -/
def WritesNumber (text : List Char) (number : Nat) : Prop :=
  text ≠ [] ∧ (∀ c ∈ text, c.isDigit = true) ∧ number = Nat.ofDigitChars 10 text 0

/-- Whether the text writes a number of at most 64 bits, perhaps with a plus sign. -/
def WritesCount (text : List Char) (count : Nat) : Prop :=
  (WritesNumber text count ∨ ∃ digits, text = '+' :: digits ∧ WritesNumber digits count) ∧
    count < 18446744073709551616

/-- Whether the text writes an integer which is not zero, without leading zeros and
perhaps with a minus sign. -/
def WritesCode (text : List Char) (code : Int) : Prop :=
  ∃ lead digits, isLeadingDigit lead = true ∧ (∀ c ∈ digits, c.isDigit = true) ∧
    ((text = lead :: digits ∧ code = Nat.ofDigitChars 10 (lead :: digits) 0) ∨
      (text = '-' :: lead :: digits ∧ code = -Nat.ofDigitChars 10 (lead :: digits) 0))

/-- Whether the text is the mark of a header and two numbers, with blanks in between
and behind them. -/
def WritesHeader (text : List Char) (header : Header) : Prop :=
  ∃ gap variableWord between clauseWord ending,
    text = Header.mark ++ gap ++ variableWord ++ between ++ clauseWord ++ ending ∧
      (∀ c ∈ gap ++ between ++ ending, isBlank c = true) ∧ between ≠ [] ∧
        WritesCount variableWord header.variableCount ∧ WritesCount clauseWord header.clauseCount

/-- What data consist of: the ends of clauses and the codes of literals. -/
inductive Item where
  | zero
  | code (code : Int)
deriving DecidableEq

/-- How items are written.  White space may stand anywhere between them, and has to stand behind
codes. -/
inductive WritesItems : List Char → List Item → Prop where
  | nil : WritesItems [] []
  | space {c : Char} {text : List Char} {items : List Item} :
    isSpace c = true → WritesItems text items → WritesItems (c :: text) items
  | zero {text : List Char} {items : List Item} :
    WritesItems text items → WritesItems ('0' :: text) (.zero :: items)
  | code {numeral : List Char} {code : Int} {c : Char} {text : List Char} {items : List Item} :
    WritesCode numeral code → isSpace c = true → WritesItems (c :: text) items →
      WritesItems (numeral ++ c :: text) (.code code :: items)

/-- What a line can be.  A header or the items of data are its content; a comment has none. -/
inductive Line where
  | blank
  | comment
  | header (header : Header)
  | data (items : List Item)
deriving DecidableEq

def Line.header? : Line → Option Header
  | .header declared => some declared
  | .blank | .comment | .data _ => none

def Line.items : Line → List Item
  | .data items => items
  | .blank | .comment | .header _ => []

/-- How a line is written, with the line feed at its end. -/
inductive WritesLine : List Char → Line → Prop where
  | blank {spaces : List Char} : (∀ c ∈ spaces, isSpace c = true) → WritesLine spaces .blank
  | comment {spaces text : List Char} :
    (∀ c ∈ spaces, isSpace c = true) → WritesLine (spaces ++ 'c' :: text) .comment
  | header {spaces text : List Char} {header : Header} :
    (∀ c ∈ spaces, isSpace c = true) → WritesHeader text header →
      WritesLine (spaces ++ text) (.header header)
  | data {text : List Char} {items : List Item} :
    WritesItems text items → items ≠ [] → WritesLine text (.data items)

/-- How a text is cut into lines. -/
inductive WritesLines : List Char → List Line → Prop where
  | last {text : List Char} {line : Line} :
    '\n' ∉ text → WritesLine text line → WritesLines text [line]
  | cons {text more : List Char} {line : Line} {lines : List Line} :
    '\n' ∉ text → WritesLine (text ++ ['\n']) line → WritesLines more lines →
      WritesLines (text ++ '\n' :: more) (line :: lines)

def itemsOf (lines : List Line) : List Item :=
  lines.flatMap Line.items

/-- The items of clauses, each with a zero at its end. -/
def itemsOfClauses (clauses : List (List Literal)) : List Item :=
  clauses.flatMap fun clause => clause.map (fun literal => .code literal.code) ++ [.zero]

/-- Whether the lines have exactly this header, which stands before the first item,
and the items keep to it. -/
structure Arranged (lines : List Line) (header : Header) : Prop where
  one_header : lines.filterMap Line.header? = [header]
  header_first : ∀ before line after, lines = before ++ line :: after → line.items ≠ [] →
    .header header ∈ before
  codes_bounded : ∀ code, .code code ∈ itemsOf lines →
    code.natAbs ≤ min header.variableCount 2147483647
  zero_count : (itemsOf lines).count .zero = header.clauseCount
  last_zero : ∀ item, (itemsOf lines).getLast? = some item → item = .zero

end Dimacs
end UnitPropagation
