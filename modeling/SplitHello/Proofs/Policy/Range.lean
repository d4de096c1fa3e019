import Mathlib.Algebra.Group.Nat.Defs
import SplitHello.Proofs.Policy.Sample

/-!
# Proofs/Policy/Range — random numbers in machine words

What a number is drawn with are words: the size of the interval, which for the interval of all
numbers wraps to 0, the halves of a product, and sums that must not leave the words.  Drawn so, a
number is the same, and no sum leaves them.

* `sampleWord_eq_some` — a number can be drawn in words, and is the same;
* `exists_drawn_sample` — how many words a number takes;
* `exists_scaled_eq`, `exists_sample_eq` — every offset, and so every number, can come up.
-/

namespace SplitHello.Interval

/-! ## Drawing in words -/

/-- The high half of the product of two words. -/
def highHalf (a b : UInt64) : UInt64 := UInt64.ofNat (a.toNat * b.toNat / wordCount)

/-- The sum of two words, if it is one. -/
def plus (a b : UInt64) : Option UInt64 :=
  if a.toNat + b.toNat < wordCount then some (a + b) else none

/-- How many numbers an interval holds, as a word: 0 if it holds them all. -/
def range (iv : Interval) : UInt64 := iv.max - iv.min + 1

/-- An offset below `range`, which is not 0, drawn from one word or two. -/
def drawOffsetWord (range : UInt64) (words : Words) : Option (UInt64 × Words) :=
  let (word, words) := words.next
  let high := highHalf word range
  let low := word * range
  if low ≤ -range then some (high, words)
  else
    let (word, words) := words.next
    match plus low (highHalf word range) with
    | some _ => some (high, words)
    | none => (plus high 1).map fun offset => (offset, words)

/-- A number from an interval, drawn in words. -/
def sampleWord (iv : Interval) (words : Words) : Option (UInt64 × Words) :=
  if iv.isSingle then some (iv.min, words)
  else if iv.range = 0 then some words.next
  else
    (drawOffsetWord iv.range words).bind fun offset =>
      (plus iv.min offset.1).map fun number => (number, offset.2)

variable {iv : Interval} {a b range : UInt64} {size offset : Nat}

theorem toNat_highHalf (a b : UInt64) : (highHalf a b).toNat = a.toNat * b.toNat / wordCount := by
  refine UInt64.toNat_ofNat_of_lt' (Nat.div_lt_of_lt_mul ?_)
  exact Nat.mul_lt_mul'' a.toNat_lt b.toNat_lt

theorem plus_eq_some (h : a.toNat + b.toNat < wordCount) : plus a b = some (a + b) := if_pos h

theorem plus_eq_none (h : wordCount ≤ a.toNat + b.toNat) : plus a b = none :=
  if_neg (Nat.not_lt_of_le h)

theorem toNat_add_of_lt (h : a.toNat + b.toNat < wordCount) :
    (a + b).toNat = a.toNat + b.toNat := by
  rw [UInt64.toNat_add]
  exact Nat.mod_eq_of_lt h

/-- An interval holds one number only exactly if its bounds are the same. -/
theorem isSingle_iff : iv.isSingle = true ↔ iv.min = iv.max := beq_iff_eq

theorem sample_of_single (h : iv.min = iv.max) (words : Words) :
    iv.sample words = (iv.min, words) := if_pos (isSingle_iff.mpr h)

theorem sample_of_full (h : iv.min ≠ iv.max) (hfull : iv.size = wordCount) (words : Words) :
    iv.sample words = words.next :=
  (if_neg (mt isSingle_iff.mp h)).trans (if_pos hfull)

theorem sample_of_part (h : iv.min ≠ iv.max) (hpart : iv.size ≠ wordCount) (words : Words) :
    iv.sample words = (UInt64.ofNat (iv.min.toNat + (drawOffset iv.size words).1),
      (drawOffset iv.size words).2) :=
  (if_neg (mt isSingle_iff.mp h)).trans (if_neg hpart)

/-- The size of an interval is a word, unless it wraps. -/
theorem toNat_range (iv : Interval) : iv.range.toNat = iv.size % wordCount := by
  rw [range, UInt64.toNat_add, UInt64.toNat_sub_of_le _ _ iv.min_le_max]
  rfl

/-- The size of an interval wraps exactly if the interval holds all numbers. -/
theorem range_eq_zero_iff (iv : Interval) : iv.range = 0 ↔ iv.size = wordCount := by
  have hpos := iv.size_pos
  have hle := iv.size_le_wordCount
  rw [← UInt64.toNat_inj, toNat_range, UInt64.toNat_zero]
  refine ⟨fun hzero => Nat.le_antisymm hle (Nat.le_of_not_lt fun hlt => ?_), fun hfull => ?_⟩
  · rw [Nat.mod_eq_of_lt hlt] at hzero
    exact absurd hzero (Nat.ne_of_gt hpos)
  · rw [hfull, Nat.mod_self]

/-- A sum of two words that is none is one word and one carry. -/
theorem add_div_wordCount (h : wordCount ≤ a.toNat + b.toNat) :
    (a.toNat + b.toNat) / wordCount = 1 := by
  have ha := a.toNat_lt
  have hb := b.toNat_lt
  refine Nat.div_eq_of_lt_le (by omega) ?_
  rw [wordCount, UInt64.size]
  omega

/-- The low half of a product is compared in words as in numbers. -/
theorem mul_le_neg_iff (hrange : 0 < range.toNat) (word : UInt64) :
    word * range ≤ -range ↔
      word.toNat * range.toNat % wordCount ≤ wordCount - range.toNat := by
  have hneg : (-range).toNat = wordCount - range.toNat :=
    (UInt64.toNat_neg range).trans (Nat.mod_eq_of_lt (Nat.sub_lt (by decide) hrange))
  rw [UInt64.le_iff_toNat_le, hneg, UInt64.toNat_mul]
  rfl

/-- **An offset can be drawn in words**, and is the same. -/
theorem exists_drawOffsetWord (hrange : range ≠ 0) (words : Words) :
    ∃ offset, drawOffsetWord range words = some (offset, (drawOffset range.toNat words).2) ∧
      offset.toNat = (drawOffset range.toNat words).1 := by
  have hpos : 0 < range.toNat := Nat.pos_of_ne_zero fun h => hrange (UInt64.toNat_inj.mp h)
  have hbelow : range.toNat < wordCount := range.toNat_lt
  have hlt := drawOffset_lt hpos (Nat.le_of_lt hbelow) words
  simp only [drawOffset, drawOffsetWord] at hlt ⊢
  generalize words.next.1 = word at hlt ⊢
  generalize words.next.2.next.1 = second at hlt ⊢
  have hhigh := toNat_highHalf word range
  have hlow : (word * range).toNat = word.toNat * range.toNat % wordCount := UInt64.toNat_mul _ _
  have hmore := toNat_highHalf second range
  have heven := mul_le_neg_iff hpos word
  by_cases h : word * range ≤ -range
  · rw [if_pos h, if_pos (heven.mp h)]
    exact ⟨_, rfl, hhigh⟩
  · rw [if_neg (mt heven.mpr h), ← hhigh, ← hlow, ← hmore] at hlt
    rw [if_neg h, if_neg (mt heven.mpr h), ← hhigh, ← hlow, ← hmore]
    by_cases hcarry : (word * range).toNat + (highHalf second range).toNat < wordCount
    · rw [plus_eq_some hcarry, Nat.div_eq_of_lt hcarry]
      exact ⟨_, rfl, rfl⟩
    · have hnone := Nat.le_of_not_lt hcarry
      rw [add_div_wordCount hnone] at hlt ⊢
      -- the carry leaves the offset below the range, and so a word
      have hfits : (highHalf word range).toNat + (1 : UInt64).toNat < wordCount :=
        Nat.lt_trans hlt hbelow
      rw [plus_eq_none hnone, plus_eq_some hfits]
      exact ⟨_, rfl, toNat_add_of_lt hfits⟩

/-- **A number can be drawn in words**, and is the same: no sum leaves them. -/
theorem sampleWord_eq_some (iv : Interval) (words : Words) :
    iv.sampleWord words = some (iv.sample words) := by
  by_cases hsingle : iv.min = iv.max
  · rw [sampleWord, if_pos (isSingle_iff.mpr hsingle), sample_of_single hsingle]
  · rw [sampleWord, if_neg (mt isSingle_iff.mp hsingle)]
    by_cases hfull : iv.size = wordCount
    · rw [if_pos ((range_eq_zero_iff iv).mpr hfull), sample_of_full hsingle hfull]
    · have hrange : iv.range ≠ 0 := mt (range_eq_zero_iff iv).mp hfull
      have hsize : iv.range.toNat = iv.size :=
        (toNat_range iv).trans (Nat.mod_eq_of_lt (Nat.lt_of_le_of_ne iv.size_le_wordCount hfull))
      obtain ⟨offset, hdraw, hoffset⟩ := exists_drawOffsetWord hrange words
      rw [hsize] at hdraw hoffset
      -- the least number and an offset make a number of the interval, and so a word
      obtain ⟨hsum, hle⟩ := toNat_add_lt (drawOffset_lt iv.size_pos iv.size_le_wordCount words)
      have hfits : iv.min.toNat + offset.toNat < wordCount :=
        hoffset.symm ▸ Nat.lt_of_le_of_lt hle iv.max.toNat_lt
      have hadd : iv.min + offset = UInt64.ofNat (iv.min.toNat + (drawOffset iv.size words).1) := by
        rw [← UInt64.toNat_inj, toNat_add_of_lt hfits, hsum, hoffset]
      rw [if_neg hrange, hdraw, sample_of_part hsingle hfull, ← hadd, Option.bind_some,
        plus_eq_some hfits]
      rfl

/-! ## How many words are drawn -/

/-- An offset takes one word or two. -/
theorem drawOffset_words (size : Nat) (words : Words) :
    (drawOffset size words).2 = { words with drawn := words.drawn + 1 } ∨
      (drawOffset size words).2 = { words with drawn := words.drawn + 2 } := by
  simp only [drawOffset]
  split
  · exact .inl rfl
  · exact .inr rfl

/-- **A number takes no word if it is the only one**, and otherwise one or two. -/
theorem exists_drawn_sample (iv : Interval) (words : Words) :
    ∃ count, (iv.sample words).2 = { words with drawn := words.drawn + count } ∧
      (iv.min = iv.max → count = 0) ∧ (iv.min ≠ iv.max → count = 1 ∨ count = 2) := by
  by_cases hsingle : iv.min = iv.max
  · rw [sample_of_single hsingle]
    exact ⟨0, rfl, fun _ => rfl, fun h => absurd hsingle h⟩
  · by_cases hfull : iv.size = wordCount
    · rw [sample_of_full hsingle hfull]
      exact ⟨1, rfl, fun h => absurd h hsingle, fun _ => .inl rfl⟩
    · rw [sample_of_part hsingle hfull]
      obtain h | h := drawOffset_words iv.size words
      · exact ⟨1, h, fun h => absurd h hsingle, fun _ => .inl rfl⟩
      · exact ⟨2, h, fun h => absurd h hsingle, fun _ => .inr rfl⟩

/-! ## Every number can come up -/

/-- **Every offset is the share of some word.** -/
theorem exists_scaled_eq (hoffset : offset < size) (hsize : size ≤ wordCount) :
    ∃ word : UInt64, word.toNat * size / wordCount = offset := by
  have hpos : 0 < size := Nat.zero_lt_of_lt hoffset
  -- the least number that is scaled to the offset or beyond
  obtain ⟨least, hreaches, hwithin⟩ : ∃ least,
      offset * wordCount ≤ least * size ∧ least * size ≤ offset * wordCount + (size - 1) := by
    refine ⟨(offset * wordCount + (size - 1)) / size, ?_, Nat.div_mul_le_self _ _⟩
    have := Nat.lt_div_mul_add hpos (a := offset * wordCount + (size - 1))
    omega
  have hword : least < wordCount := by
    refine Nat.lt_of_mul_lt_mul_right (a := size) ?_
    calc least * size ≤ offset * wordCount + (size - 1) := hwithin
      _ < offset * wordCount + wordCount := by omega
      _ = (offset + 1) * wordCount := (Nat.succ_mul _ _).symm
      _ ≤ size * wordCount := Nat.mul_le_mul_right wordCount hoffset
      _ = wordCount * size := Nat.mul_comm _ _
  refine ⟨UInt64.ofNat least, ?_⟩
  rw [UInt64.toNat_ofNat_of_lt' hword]
  exact Nat.div_eq_of_lt_le hreaches (by rw [Nat.succ_mul]; omega)

/-- If the second word is 0, an offset is the share of the first. -/
theorem drawOffset_of_zero (words : Words) (h : words.next.2.next.1 = 0) (size : Nat) :
    (drawOffset size words).1 = words.next.1.toNat * size / wordCount := by
  simp only [drawOffset]
  split
  · rfl
  · have hmod : words.next.1.toNat * size % wordCount < wordCount := Nat.mod_lt _ (by decide)
    rw [h, UInt64.toNat_zero, Nat.zero_mul, Nat.zero_div, Nat.add_zero, Nat.div_eq_of_lt hmod,
      Nat.add_zero]

/-- **Every number of an interval can come up.** -/
theorem exists_sample_eq {v : UInt64} (hmin : iv.min ≤ v) (hmax : v ≤ iv.max) :
    ∃ first second : UInt64, (iv.sample (.cycle [first, second])).1 = v := by
  by_cases hsingle : iv.min = iv.max
  · exact ⟨0, 0, by rw [sample_of_single hsingle, UInt64.le_antisymm hmin (hsingle ▸ hmax)]⟩
  · by_cases hfull : iv.size = wordCount
    · exact ⟨v, 0, by rw [sample_of_full hsingle hfull]; rfl⟩
    · rw [UInt64.le_iff_toNat_le] at hmin hmax
      have hoffset : v.toNat - iv.min.toNat < iv.size := by
        rw [size]
        omega
      obtain ⟨word, hword⟩ := exists_scaled_eq hoffset iv.size_le_wordCount
      have hdraw := (drawOffset_of_zero (.cycle [word, 0]) rfl iv.size).trans hword
      refine ⟨word, 0, ?_⟩
      rw [sample_of_part hsingle hfull, hdraw, Nat.add_sub_cancel' hmin, UInt64.ofNat_toNat]

/-- **Sampling an interval covers it and does not leave it.**  A drawn number lies in the interval,
and is drawn in machine words without a sum that leaves them, from no word if it is the only one and
otherwise from one or two; and every number of the interval can come up.  The size wraps for the
interval of all words, and for no other. -/
theorem sample_covers (iv : Interval) :
    (∀ words : Words,
      iv.min ≤ (iv.sample words).1 ∧ (iv.sample words).1 ≤ iv.max ∧
      iv.sampleWord words = some (iv.sample words) ∧
      ∃ count, (iv.sample words).2 = { words with drawn := words.drawn + count } ∧
        (iv.min = iv.max → count = 0) ∧ (iv.min ≠ iv.max → count = 1 ∨ count = 2)) ∧
    (∀ v, iv.min ≤ v → v ≤ iv.max →
      ∃ first second : UInt64, (iv.sample (.cycle [first, second])).1 = v) ∧
    (iv.range = 0 ↔ iv.min.toNat = 0 ∧ iv.max.toNat = 2 ^ 64 - 1) := by
  refine ⟨fun words => ?_, fun v => exists_sample_eq, ?_⟩
  · exact ⟨iv.min_le_sample words, iv.sample_le_max words, sampleWord_eq_some iv words,
      exists_drawn_sample iv words⟩
  · have hmin : iv.min.toNat ≤ iv.max.toNat := iv.min_le_max
    have hmax := iv.max.toNat_lt
    rw [range_eq_zero_iff, size, wordCount, UInt64.size]
    omega

/-- An interval of more than half of the words. -/
def wide : Interval := ⟨3, 0x8000000000000009, by decide⟩

/-- The interval of all words. -/
def whole : Interval := ⟨0, 0xffffffffffffffff, by decide⟩

/-- In an interval of more than half of the words the second of two words carries, and the greatest
number can come up; the interval of all words is drawn from though its size wraps. -/
theorem sample_covers_wide :
    (wide.sample (.cycle [1, 0xffffffffffffffff])).1 = 4 ∧ wide.min ≤ 4 ∧ (4 : UInt64) ≤ wide.max ∧
    wide.sampleWord (.cycle [1, 0xffffffffffffffff]) =
      some (wide.sample (.cycle [1, 0xffffffffffffffff])) ∧
    (∃ first second : UInt64, (wide.sample (.cycle [first, second])).1 = 0x8000000000000009) ∧
    whole.range = 0 ∧ ∃ first second : UInt64, (whole.sample (.cycle [first, second])).1 = 7 := by
  obtain ⟨hdrawn, hcovers, -⟩ := sample_covers wide
  obtain ⟨-, hwhole, hwraps⟩ := sample_covers whole
  obtain ⟨hmin, hmax, hwords, -⟩ := hdrawn (.cycle [1, 0xffffffffffffffff])
  have hfour : (wide.sample (.cycle [1, 0xffffffffffffffff])).1 = 4 := by decide +kernel
  rw [hfour] at hmin hmax
  exact ⟨hfour, hmin, hmax, hwords, hcovers _ (by decide) (by decide),
    hwraps.mpr ⟨by decide, by decide⟩, hwhole 7 (by decide) (by decide)⟩

end SplitHello.Interval
