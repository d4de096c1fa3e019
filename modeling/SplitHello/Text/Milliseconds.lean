/-!
# Text/Milliseconds — a span of time in its largest fitting unit

Nothing is `0ns`; below a second a span is in milliseconds; from there on it is in seconds, with up
to three decimals and no zero at their end.
-/

namespace SplitHello.Text

/-- The decimals of `n` thousandths: three digits without the zeros at their end. -/
def thousandths (n : Nat) : List Char :=
  let digits := Nat.toDigits 10 n
  (List.replicate (3 - digits.length) '0' ++ digits).reverse.dropWhile (· == '0') |>.reverse

/-- A span of `n` milliseconds. -/
def milliseconds (n : Nat) : String :=
  if n = 0 then "0ns"
  else if n < 1000 then s!"{n}ms"
  else if n % 1000 = 0 then s!"{n / 1000}s"
  else s!"{n / 1000}." ++ String.ofList (thousandths (n % 1000)) ++ "s"

end SplitHello.Text
