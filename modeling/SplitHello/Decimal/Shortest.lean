/-!
# Decimal/Shortest — the fewest digits that denote a floating point number

A finite positive number stands for all reals that round to it.  Of the decimal numbers among them
those with the fewest digits are sought, and of these the nearest: for each count of digits the two
neighbours of the number on that grid are tried, in exact arithmetic.
-/

namespace SplitHello.Decimal

/-- A positive number `mantissa · 2 ^ exponent`. -/
structure Binary where
  /-- The whole number that is scaled. -/
  mantissa : Nat
  /-- The power of two. -/
  exponent : Int
  /-- Whether the next number below is only half as far away as the next one above. -/
  isLeast : Bool

/-- A decimal number `digits · 10 ^ exponent`. -/
structure Scaled where
  /-- The digits. -/
  digits : Nat
  /-- The power of ten. -/
  exponent : Int

/-- The binary form of the bits of a finite number, without its sign. -/
def Binary.ofBits (bits : UInt64) : Binary :=
  let hidden : Nat := 0x10000000000000
  let fraction : Nat := bits.toNat % hidden
  let magnitude : Nat := bits.toNat / hidden % 0x800
  if magnitude = 0 then ⟨fraction, -1074, false⟩
  else ⟨hidden + fraction, (magnitude : Int) - 1075, fraction = 0 ∧ 1 < magnitude⟩

/-- A power with an exponent cut off below at zero. -/
def power (base : Nat) (exponent : Int) : Nat := base.pow exponent.toNat

/-- The best decimal for a number on the grid of a power of ten, if one there denotes it. -/
def onGrid (x : Binary) (grid : Int) : Option Scaled :=
  -- all is scaled so that the number is `4 * mantissa * unit` and the grid's step is `4 * step`
  let unit := power 2 x.exponent * power 10 (-grid)
  let step := power 2 (-x.exponent) * power 10 grid
  let value := 4 * x.mantissa * unit
  let low := value - (if x.isLeast then 1 else 2) * unit
  let high := value + 2 * unit
  let denotes (digits : Nat) : Bool :=
    let candidate := 4 * digits * step
    if x.mantissa % 2 = 0 then low ≤ candidate && candidate ≤ high
    else low < candidate && candidate < high
  let below := x.mantissa * unit / step
  let toBelow := value - 4 * below * step
  let toAbove := 4 * (below + 1) * step - value
  let belowFirst := toBelow < toAbove || (toBelow == toAbove && below % 2 == 0)
  let order := if belowFirst then [below, below + 1] else [below + 1, below]
  (order.find? denotes).map (⟨·, grid⟩)

/-- The first grid, from a coarse one to finer ones, that has a decimal for a number. -/
def fromGrid (x : Binary) : (fuel : Nat) → (grid : Int) → Option Scaled
  | 0, _ => none
  | fuel + 1, grid =>
      match onGrid x grid with
      | some d => if d.digits = 0 then fromGrid x fuel (grid - 1) else some d
      | none => fromGrid x fuel (grid - 1)

/-- A decimal without zeros at its end; `fuel` bounds their number. -/
def stripZeros : (fuel : Nat) → Scaled → Scaled
  | 0, d => d
  | fuel + 1, d =>
      if d.digits ≠ 0 ∧ d.digits % 10 = 0 then stripZeros fuel ⟨d.digits / 10, d.exponent + 1⟩
      else d

/-- The shortest decimal of a positive number.  No number reaches `10 ^ 309`, and on the grid of
`10 ^ -1074` every number has its own place. -/
def shortest (x : Binary) : Scaled :=
  stripZeros 400 ((fromGrid x 1400 309).getD ⟨0, 0⟩)

/-- An exponent after its letter, with its sign and no zeros ahead. -/
def exponentText (n : Int) : String := (if n < 0 then "e-" else "e+") ++ n.natAbs.repr

/-- A decimal in positional notation, or with an exponent where that would be long. -/
def Scaled.text (d : Scaled) : String :=
  let digits := Nat.toDigits 10 d.digits
  let point := digits.length + d.exponent
  let zeros (n : Int) : List Char := List.replicate n.toNat '0'
  if 0 ≤ d.exponent ∧ point ≤ 16 then String.ofList (digits ++ zeros d.exponent ++ ['.', '0'])
  else if 0 < point ∧ point ≤ 16 then
    String.ofList (digits.take point.toNat ++ '.' :: digits.drop point.toNat)
  else if -5 < point ∧ point ≤ 0 then String.ofList ('0' :: '.' :: (zeros (-point) ++ digits))
  else
    match digits with
    | [digit] => String.ofList [digit] ++ exponentText (point - 1)
    | digit :: more => String.ofList (digit :: '.' :: more) ++ exponentText (point - 1)
    | [] => ""

/-- The text of a finite number. -/
def floatText (x : Float) : String :=
  let sign := if x.toBits < 0x8000000000000000 then "" else "-"
  let magnitude := x.toBits % 0x8000000000000000
  if magnitude = 0 then sign ++ "0.0" else sign ++ (shortest (.ofBits magnitude)).text

end SplitHello.Decimal
