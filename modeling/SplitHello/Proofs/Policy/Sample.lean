import SplitHello.Policy.Sample

/-!
# Proofs/Policy/Sample — random numbers stay inside their interval

The high half of the product of a word and the interval's size is below the size, and where the
second word may carry, it is so by two: the offset never leaves the interval, and adding it to the
least number never wraps.

* `drawOffset_lt` — an offset is below the size it was drawn for;
* `min_le_sample`, `sample_le_max` — a number drawn from an interval lies in it.
-/

namespace SplitHello.Interval

/-- A scaled word is short of the full scale by at least one size. -/
theorem scaled_add_size_le (word : UInt64) (size : Nat) :
    word.toNat * size + size ≤ wordCount * size := by
  have hword : word.toNat + 1 ≤ wordCount := word.toNat_lt
  calc word.toNat * size + size = (word.toNat + 1) * size := (Nat.succ_mul _ _).symm
    _ ≤ wordCount * size := Nat.mul_le_mul_right size hword

/-- The high half of a scaled word is below the size. -/
theorem scaled_div_lt {size : Nat} (hpos : 0 < size) (word : UInt64) :
    word.toNat * size / wordCount < size := by
  refine Nat.div_lt_of_lt_mul ?_
  have := scaled_add_size_le word size
  omega

/-- **An offset is below the size it was drawn for.** -/
theorem drawOffset_lt {size : Nat} (hpos : 0 < size) (hsize : size ≤ wordCount) (words : Words) :
    (drawOffset size words).1 < size := by
  simp only [drawOffset]
  split
  · exact scaled_div_lt hpos _
  · next hlow =>
    generalize words.next.1 = word at hlow ⊢
    generalize words.next.2.next.1 = second
    -- a low half that is too large leaves the high half two short of the size
    have hhigh : word.toNat * size / wordCount + 1 < size := by
      refine Nat.lt_of_le_of_ne (scaled_div_lt hpos word) fun heq => ?_
      have hscaled := scaled_add_size_le word size
      have hsplit := Nat.div_add_mod (word.toNat * size) wordCount
      have hfull : wordCount * (word.toNat * size / wordCount) + wordCount = wordCount * size := by
        rw [← Nat.mul_succ, Nat.succ_eq_add_one, heq]
      omega
    have hcarry : (word.toNat * size % wordCount + second.toNat * size / wordCount) / wordCount <
        2 := by
      refine Nat.div_lt_of_lt_mul ?_
      have hmod : word.toNat * size % wordCount < wordCount := Nat.mod_lt _ (by decide)
      have hdiv := scaled_div_lt hpos second
      omega
    omega

/-! ## A drawn number -/

theorem size_pos (iv : Interval) : 0 < iv.size := Nat.succ_pos _

theorem size_le_wordCount (iv : Interval) : iv.size ≤ wordCount := by
  have hmax : iv.max.toNat < wordCount := iv.max.toNat_lt
  rw [size]
  omega

/-- A number of an interval is the least one and an offset. -/
theorem toNat_add_lt {iv : Interval} {offset : Nat} (h : offset < iv.size) :
    (UInt64.ofNat (iv.min.toNat + offset)).toNat = iv.min.toNat + offset ∧
      iv.min.toNat + offset ≤ iv.max.toNat := by
  have hle : iv.min.toNat ≤ iv.max.toNat := iv.min_le_max
  have hmax := iv.max.toNat_lt
  rw [size] at h
  refine ⟨?_, by omega⟩
  rw [UInt64.toNat_ofNat']
  exact Nat.mod_eq_of_lt (by omega)

/-- What a drawn number is: it lies in the interval. -/
theorem mem_sample (iv : Interval) (words : Words) :
    iv.min ≤ (iv.sample words).1 ∧ (iv.sample words).1 ≤ iv.max := by
  rw [sample]
  split
  · exact ⟨UInt64.le_refl _, iv.min_le_max⟩
  · split
    · next hfull =>
      -- the interval holds every word
      have hmax := iv.max.toNat_lt
      have hword := words.next.1.toNat_lt
      rw [size, wordCount, UInt64.size] at hfull
      rw [UInt64.le_iff_toNat_le, UInt64.le_iff_toNat_le]
      exact ⟨by omega, by omega⟩
    · have hlt := drawOffset_lt iv.size_pos iv.size_le_wordCount words
      obtain ⟨heq, hle⟩ := toNat_add_lt hlt
      dsimp only
      rw [UInt64.le_iff_toNat_le, UInt64.le_iff_toNat_le, heq]
      exact ⟨Nat.le_add_right _ _, hle⟩

/-- **A drawn number is no less than the least one.** -/
theorem min_le_sample (iv : Interval) (words : Words) : iv.min ≤ (iv.sample words).1 :=
  (iv.mem_sample words).1

/-- **A drawn number is no more than the greatest one.** -/
theorem sample_le_max (iv : Interval) (words : Words) : (iv.sample words).1 ≤ iv.max :=
  (iv.mem_sample words).2

end SplitHello.Interval
