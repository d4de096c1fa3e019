import SplitHello.Decimal.Shortest
import SplitHello.Json.Fault

/-!
# Json/Number — numbers of a document

A number is a whole part without leading zeros, and then maybe a fraction and an exponent.  One
without either that fits 64 bits is an integer; any other is taken as a floating point number, which
is worked out from as many leading digits as fit 64 bits and one power of ten.
-/

namespace SplitHello.Json

/-- A number as it is written. -/
structure Numeral where
  /-- Whether a minus sign is ahead. -/
  negative : Bool
  /-- The digits of the whole part. -/
  whole : List Char
  /-- The digits of the fraction. -/
  fraction : List Char
  /-- The exponent. -/
  exponent : Option Int

/-- The number that digits denote. -/
def digitsValue (digits : List Char) : Nat :=
  digits.foldl (fun n c => n * 10 + (c.toNat - '0'.toNat)) 0

/-- One or more digits. -/
def digits (text : List Char) : Except Fault (List Char × List Char) :=
  match text with
  | [] => .error .endsEarly
  | c :: _ =>
      if c.isDigit then .ok (text.takeWhile Char.isDigit, text.dropWhile Char.isDigit)
      else .error .malformed

/-- The whole part: a zero, or digits that start with another one. -/
def wholePart (text : List Char) : Except Fault (List Char × List Char) := do
  let (whole, text) ← digits text
  if whole.head? = some '0' ∧ whole.length ≠ 1 then throw .malformed
  return (whole, text)

/-- The fraction, if there is one. -/
def fractionPart : List Char → Except Fault (List Char × List Char)
  | '.' :: text => digits text
  | text => .ok ([], text)

/-- The exponent after its letter. -/
def signedExponent : List Char → Except Fault (Int × List Char)
  | '-' :: text => (digits text).map fun (ds, text) => (-(digitsValue ds : Int), text)
  | '+' :: text => (digits text).map fun (ds, text) => ((digitsValue ds : Int), text)
  | text => (digits text).map fun (ds, text) => ((digitsValue ds : Int), text)

/-- The exponent, if there is one. -/
def exponentPart : List Char → Except Fault (Option Int × List Char)
  | 'e' :: text | 'E' :: text => (signedExponent text).map fun (n, text) => (some n, text)
  | text => .ok (none, text)

/-- A number whose sign is behind. -/
def numeral (negative : Bool) (text : List Char) : Except Fault (Numeral × List Char) := do
  let (whole, text) ← wholePart text
  let (fraction, text) ← fractionPart text
  let (exponent, text) ← exponentPart text
  return (⟨negative, whole, fraction, exponent⟩, text)

/-- What follows a number that nobody looks at.  It is malformed also where it ends early. -/
def skipNumeral (text : List Char) : Except Fault (List Char) :=
  match numeral false text with
  | .ok (_, text) => .ok text
  | .error _ => .error .malformed

/-! ## Values -/

/-- The number whose digits are those of `n` and then as many of `digits` as fit 64 bits, and how
many those are. -/
def absorb (n : Nat) : List Char → Nat × Nat
  | [] => (n, 0)
  | c :: digits =>
      let more := n * 10 + (c.toNat - '0'.toNat)
      if more < UInt64.size then
        let (total, count) := absorb more digits
        (total, count + 1)
      else (n, 0)

/-- A power of ten. -/
def powerOfTen (n : Nat) : Float := Float.ofScientific 1 false n

/-- A number divided by a power of ten, in steps that are floating point numbers themselves; after
`steps` of them nothing is left. -/
def divideByPower (steps : Nat) (x : Float) (n : Nat) : Float :=
  match steps with
  | 0 => 0
  | steps + 1 =>
      if n ≤ 308 then x / powerOfTen n else divideByPower steps (x / powerOfTen 308) (n - 308)

/-- `significand · 10 ^ exponent`, unless it is out of range. -/
def scale (significand : Nat) (exponent : Int) : Except Fault Float :=
  let x := (UInt64.ofNat significand).toFloat
  if exponent < 0 then .ok (divideByPower 4 x exponent.natAbs)
  else if significand = 0 then .ok 0
  else if 308 < exponent then .error .malformed
  else
    let product := x * powerOfTen exponent.natAbs
    if product.isInf then .error .malformed else .ok product

/-- A numeral as a floating point number. -/
def Numeral.float (numeral : Numeral) : Except Fault Float :=
  let (significand, kept) := absorb 0 numeral.whole
  let (significand, added) := absorb significand numeral.fraction
  let exponent :=
    numeral.exponent.getD 0 + (numeral.whole.length - kept : Nat) - (added : Nat)
  (scale significand exponent).map fun x => if numeral.negative then -x else x

/-- What a numeral is found to be. -/
def Numeral.found (numeral : Numeral) : Except Fault Found :=
  let n := digitsValue numeral.whole
  let float := numeral.float.map fun x => Found.float (Decimal.floatText x)
  if numeral.fraction ≠ [] ∨ numeral.exponent.isSome then float
  else if numeral.negative then
    if 0 < n ∧ n ≤ 0x8000000000000000 then .ok (.integer (-n)) else float
  else if n < UInt64.size then .ok (.integer n)
  else float

end SplitHello.Json
