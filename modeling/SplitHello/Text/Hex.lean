import SplitHello.Bytes

/-!
# Text/Hex — numbers and byte strings in hexadecimal

Digits are lower case.  A number has at least a stated count of digits, padded with zeros.
-/

namespace SplitHello.Text

/-- The hexadecimal digits of `n`, at least `digits` of them. -/
def hexDigits (digits n : Nat) : String :=
  let shown := Nat.toDigits 16 n
  String.ofList (List.replicate (digits - shown.length) '0' ++ shown)

/-- A number after `0x`, with at least `digits` digits. -/
def hex (digits n : Nat) : String := "0x" ++ hexDigits digits n

/-- A byte string, two digits a byte. -/
def hexBytes (b : Bytes) : String := String.join (b.map fun byte => hexDigits 2 byte.toNat)

end SplitHello.Text
