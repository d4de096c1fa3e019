/-!
# Text/Blank — white space

The characters with the property White_Space, ASCII and beyond, and texts without them at their
ends.  A property is given by the ranges of the characters that have it.

* `inRanges_of_within`, `inRanges_eq_false` — characters in ranges, by comparing ranges only.
-/

namespace SplitHello.Text

/-- The ranges of the characters that are white space. -/
def blankRanges : List (Nat × Nat) :=
  [(0x09, 0x0d), (0x20, 0x20), (0x85, 0x85), (0xa0, 0xa0), (0x1680, 0x1680), (0x2000, 0x200a),
    (0x2028, 0x2029), (0x202f, 0x202f), (0x205f, 0x205f), (0x3000, 0x3000)]

/-- Whether a character lies in one of some ranges, ends included. -/
def inRanges (ranges : List (Nat × Nat)) (c : Char) : Bool :=
  ranges.any fun (low, high) => low ≤ c.toNat && c.toNat ≤ high

theorem inRanges_eq_true_iff {ranges : List (Nat × Nat)} {c : Char} :
    inRanges ranges c = true ↔ ∃ range ∈ ranges, range.1 ≤ c.toNat ∧ c.toNat ≤ range.2 := by
  simp [inRanges]

/-- A character in some ranges is in any that each of them lies in one of. -/
theorem inRanges_of_within {ranges wider : List (Nat × Nat)} {c : Char}
    (h : ranges.all (fun range => wider.any fun wide =>
      wide.1 ≤ range.1 && range.2 ≤ wide.2) = true)
    (hc : inRanges ranges c = true) : inRanges wider c = true := by
  obtain ⟨range, hrange, hlow, hhigh⟩ := inRanges_eq_true_iff.mp hc
  obtain ⟨wide, hwide, hwithin⟩ := List.any_eq_true.mp (List.all_eq_true.mp h range hrange)
  obtain ⟨hbelow, habove⟩ : wide.1 ≤ range.1 ∧ range.2 ≤ wide.2 := by simpa using hwithin
  exact inRanges_eq_true_iff.mpr ⟨wide, hwide, Nat.le_trans hbelow hlow, Nat.le_trans hhigh habove⟩

/-- A character is in no ranges that leave out what is around it. -/
theorem inRanges_eq_false {ranges : List (Nat × Nat)} {c : Char} {low high : Nat}
    (h : ranges.all (fun range => range.2 < low || high < range.1) = true)
    (hlow : low ≤ c.toNat) (hhigh : c.toNat ≤ high) : inRanges ranges c = false := by
  refine Bool.eq_false_iff.mpr fun hc => ?_
  obtain ⟨range, hrange, hfirst, hlast⟩ := inRanges_eq_true_iff.mp hc
  have hout : range.2 < low ∨ high < range.1 := by
    simpa using List.all_eq_true.mp h range hrange
  omega

/-- Whether a character is white space. -/
def isBlank (c : Char) : Bool := inRanges blankRanges c

/-- A text without the white space at its two ends. -/
def trim (text : List Char) : List Char :=
  ((text.dropWhile isBlank).reverse.dropWhile isBlank).reverse

end SplitHello.Text
