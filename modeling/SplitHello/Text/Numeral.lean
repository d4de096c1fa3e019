/-!
# Text/Numeral — decimal numerals below a bound

A numeral is an optional plus sign and one or more ASCII digits; leading zeros do not matter.  The
digits are read from the left, and the first one that is wrong or too much decides what is reported.
-/

namespace SplitHello.Text

/-- Why a text is not a numeral below the bound. -/
inductive NumeralFault where
  /-- There is no character. -/
  | empty
  /-- A character is no digit, or there is none after the sign. -/
  | invalidDigit
  /-- The number reaches the bound. -/
  | overflow
  deriving DecidableEq

/-- One more digit after the number `n`. -/
def appendDigit (bound n : Nat) (c : Char) : Except NumeralFault Nat :=
  if !c.isDigit then .error .invalidDigit
  else
    let next := n * 10 + (c.toNat - '0'.toNat)
    if next < bound then .ok next else .error .overflow

/-- The number that a text denotes, if it is below `bound`. -/
def numeral (bound : Nat) : List Char → Except NumeralFault Nat
  | [] => .error .empty
  | ['+'] => .error .invalidDigit
  | '+' :: digits => digits.foldlM (appendDigit bound) 0
  | digits => digits.foldlM (appendDigit bound) 0

/-- The 64-bit number that a text denotes. -/
def numeral64 (text : List Char) : Except NumeralFault UInt64 :=
  (numeral UInt64.size text).map UInt64.ofNat

end SplitHello.Text
