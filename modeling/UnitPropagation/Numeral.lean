namespace UnitPropagation

/-!
# Decimal numerals

Numbers are read from decimal digits, of which there has to be at least one and
may be any number of leading zeros.  A natural number may have a plus sign, an
integer may have either sign.
-/

namespace Numeral

/-- The number written by decimal digits.  Only the digits of ASCII are decimal digits. -/
def digits? (text : List Char) : Option Nat :=
  if text ≠ [] ∧ text.all Char.isDigit then some (Nat.ofDigitChars 10 text 0) else none

def natural? : List Char → Option Nat
  | '+' :: text => digits? text
  | text => digits? text

def integer? : List Char → Option Int
  | '+' :: text => (digits? text).map Int.ofNat
  | '-' :: text => (digits? text).map fun number => -Int.ofNat number
  | text => (digits? text).map Int.ofNat

/-- The natural number written by a numeral, unless it takes more than 64 bits. -/
def word64? (text : List Char) : Option Nat :=
  (natural? text).filter (· < 18446744073709551616)

/-- The integer written by a numeral, unless it takes more than 32 bits, one of which is the
sign. -/
def int32? (text : List Char) : Option Int :=
  (integer? text).filter fun number => -2147483648 ≤ number && number < 2147483648

end Numeral

end UnitPropagation
