import SplitHello.Text.Numeral
import SplitHello.Text.Quoted

/-!
# Policy/Interval — closed intervals of 64-bit numbers, and their text form

An interval is written `N` if it holds one number and `MIN-MAX` otherwise.  White space around a
number does not matter when it is read.
-/

namespace SplitHello

/-- The numbers from `min` to `max`, ends included. -/
structure Interval where
  /-- The least number. -/
  min : UInt64
  /-- The greatest number. -/
  max : UInt64
  /-- There is at least one number. -/
  min_le_max : min ≤ max
  deriving DecidableEq

/-- Why there is no such interval. -/
inductive PolicyError where
  /-- The lower bound is above the upper one. -/
  | invalidRange (min max : UInt64)
  /-- A text is not that of an interval. -/
  | malformed (text : String)
  deriving DecidableEq

/-- An error in words. -/
def PolicyError.message : PolicyError → String
  | invalidRange min max => s!"invalid range: min {min.toNat} exceeds max {max.toNat}"
  | malformed text => "malformed range " ++ Text.quoted text

namespace Interval

/-- The interval between two bounds. -/
def ofBounds (min max : UInt64) : Except PolicyError Interval :=
  if h : min ≤ max then .ok ⟨min, max, h⟩ else .error (.invalidRange min max)

/-- The interval that holds one number. -/
def single (value : UInt64) : Interval := ⟨value, value, UInt64.le_refl value⟩

/-- Whether an interval holds one number only. -/
def isSingle (iv : Interval) : Bool := iv.min == iv.max

/-- The text of an interval. -/
def text (iv : Interval) : String :=
  if iv.isSingle then iv.min.toNat.repr else iv.min.toNat.repr ++ "-" ++ iv.max.toNat.repr

/-- A text cut at its first hyphen, which is in neither part. -/
def cutAtHyphen (text : List Char) : Option (List Char × List Char) :=
  match text.dropWhile (· ≠ '-') with
  | [] => none
  | _ :: after => some (text.takeWhile (· ≠ '-'), after)

/-- The interval that a text denotes. -/
def ofText (text : String) : Except PolicyError Interval :=
  match cutAtHyphen text.toList with
  | none =>
      match Text.numeral64 (Text.trim text.toList) with
      | .ok value => .ok (single value)
      | .error _ => .error (.malformed text)
  | some (min, max) =>
      match Text.numeral64 (Text.trim min), Text.numeral64 (Text.trim max) with
      | .ok min, .ok max => ofBounds min max
      | _, _ => .error (.malformed text)

end Interval

end SplitHello
