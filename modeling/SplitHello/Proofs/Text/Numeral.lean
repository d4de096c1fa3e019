import SplitHello.Proofs.Cursor
import SplitHello.Text.Blank
import SplitHello.Text.Numeral

/-!
# Proofs/Text/Numeral — which texts are numerals

A numeral of a 64-bit number is an optional plus sign and digits that denote it.  The digits are
read from the left and each step is checked against the bound; the number only grows, so every check
is passed exactly if the last one is.

* `numeral64_eq_ok_iff` — a text is read as a number exactly if it is a numeral of it;
* `isNumeral_repr` — the decimal digits of a number are a numeral of it;
* `trim_eq_self` — a text without blanks is its own core.
-/

namespace SplitHello.Text

/-- A text is a numeral of a number: an optional plus sign and digits that denote it. -/
def IsNumeral (text : List Char) (value : UInt64) : Prop :=
  ∃ digits : List Char, (text = digits ∨ text = '+' :: digits) ∧ digits ≠ [] ∧
    (∀ c ∈ digits, c.isDigit = true) ∧ Nat.ofDigitChars 10 digits 0 = value.toNat

variable {bound n m : Nat} {c : Char} {text digits : List Char}

/-- More digits make no number less. -/
theorem le_ofDigitChars (n : Nat) (digits : List Char) : n ≤ Nat.ofDigitChars 10 digits n := by
  induction digits generalizing n with
  | nil => exact Nat.le_refl n
  | cons c digits ih =>
      rw [Nat.ofDigitChars_cons]
      exact Nat.le_trans (by omega) (ih _)

theorem appendDigit_eq_ok_iff :
    appendDigit bound n c = .ok m ↔
      c.isDigit = true ∧ 10 * n + (c.toNat - '0'.toNat) = m ∧ m < bound := by
  rw [appendDigit, Nat.mul_comm n 10]
  by_cases hdigit : c.isDigit <;> by_cases hlt : 10 * n + (c.toNat - '0'.toNat) < bound <;>
    simp only [hdigit, hlt, Bool.not_true, Bool.not_false, if_true, if_false, Except.ok.injEq,
      Bool.false_eq_true, reduceCtorEq, true_and, false_and, false_iff]
  · exact ⟨fun h => ⟨h, h ▸ hlt⟩, And.left⟩
  · exact fun h => hlt (h.1 ▸ h.2)

/-- **Digits are read exactly if all of them are digits** and the number they denote is below the
bound. -/
theorem foldlM_appendDigit_eq_ok_iff (hn : n < bound) :
    digits.foldlM (appendDigit bound) n = .ok m ↔
      (∀ c ∈ digits, c.isDigit = true) ∧ Nat.ofDigitChars 10 digits n = m ∧ m < bound := by
  induction digits generalizing n with
  | nil =>
      refine ⟨fun h => ?_, fun h => congrArg Except.ok h.2.1⟩
      obtain rfl := Except.ok.inj h
      exact ⟨by simp, rfl, hn⟩
  | cons c digits ih =>
      simp only [List.foldlM_cons, bind_eq_ok_iff, appendDigit_eq_ok_iff, List.forall_mem_cons,
        Nat.ofDigitChars_cons]
      constructor
      · rintro ⟨next, ⟨hc, rfl, hlt⟩, h⟩
        obtain ⟨hdigits, hvalue, hm⟩ := (ih hlt).mp h
        exact ⟨⟨hc, hdigits⟩, hvalue, hm⟩
      · rintro ⟨⟨hc, hdigits⟩, hvalue, hm⟩
        have hlt := Nat.lt_of_le_of_lt (le_ofDigitChars _ digits) (hvalue ▸ hm)
        exact ⟨_, ⟨hc, rfl, hlt⟩, (ih hlt).mpr ⟨hdigits, hvalue, hm⟩⟩

/-- A text is read as a number below the bound exactly if it is its digits, behind a plus sign or
not. -/
theorem numeral_eq_ok_iff (hbound : 0 < bound) :
    numeral bound text = .ok n ↔ ∃ digits : List Char, (text = digits ∨ text = '+' :: digits) ∧
      digits ≠ [] ∧ (∀ c ∈ digits, c.isDigit = true) ∧ Nat.ofDigitChars 10 digits 0 = n ∧
      n < bound := by
  have hplus : ¬ '+'.isDigit = true := by decide
  fun_cases numeral bound text with
  | case1 => simp
  | case2 => simp [hplus]
  | case3 digits hne =>
      rw [foldlM_appendDigit_eq_ok_iff hbound]
      constructor
      · exact fun h => ⟨digits, .inr rfl, fun hnil => hne (hnil ▸ rfl), h⟩
      · rintro ⟨other, rfl | h, -, hdigits, hrest⟩
        · exact absurd (hdigits '+' List.mem_cons_self) hplus
        · obtain rfl := List.tail_eq_of_cons_eq h
          exact ⟨hdigits, hrest⟩
  | case4 =>
      rename_i hne _ hsign
      rw [foldlM_appendDigit_eq_ok_iff hbound]
      constructor
      · exact fun h => ⟨text, .inl rfl, hne, h⟩
      · rintro ⟨digits, rfl | rfl, -, h⟩
        · exact h
        · exact (hsign digits rfl).elim

/-- **A text is read as a number exactly if it is a numeral of it.** -/
theorem numeral64_eq_ok_iff {value : UInt64} :
    numeral64 text = .ok value ↔ IsNumeral text value := by
  simp only [numeral64, map_eq_ok_iff, numeral_eq_ok_iff (show 0 < UInt64.size by decide)]
  constructor
  · rintro ⟨n, ⟨digits, htext, hne, hdigits, hvalue, hlt⟩, rfl⟩
    exact ⟨digits, htext, hne, hdigits, hvalue.trans (UInt64.toNat_ofNat_of_lt' hlt).symm⟩
  · rintro ⟨digits, htext, hne, hdigits, hvalue⟩
    exact ⟨value.toNat, ⟨digits, htext, hne, hdigits, hvalue, value.toNat_lt⟩, UInt64.ofNat_toNat⟩

/-! ## Decimal digits -/

theorem isDigit_of_mem_repr (h : c ∈ n.repr.toList) : c.isDigit = true :=
  Nat.isDigit_of_mem_toDigits (by decide) (Nat.le_refl 10) (Nat.toList_repr ▸ h)

/-- **The decimal digits of a number are a numeral of it.** -/
theorem isNumeral_repr (value : UInt64) : IsNumeral value.toNat.repr.toList value :=
  ⟨_, .inl rfl, Nat.toList_repr ▸ Nat.toDigits_ne_nil, fun _ => isDigit_of_mem_repr,
    Nat.toList_repr ▸ Nat.ofDigitChars_ten_toDigits⟩

theorem toNat_of_isDigit (h : c.isDigit = true) : 48 ≤ c.toNat ∧ c.toNat ≤ 57 := by
  simpa [Char.isDigit, UInt32.le_iff_toNat_le] using h

/-! ## Blanks -/

/-- No digit is a blank. -/
theorem isBlank_of_isDigit (h : c.isDigit = true) : isBlank c = false := by
  obtain ⟨hlow, hhigh⟩ := toNat_of_isDigit h
  exact inRanges_eq_false (by decide) hlow hhigh

/-- **A text without blanks is its own core.** -/
theorem trim_eq_self (h : ∀ c ∈ text, isBlank c = false) : trim text = text := by
  have hdrop : ∀ list : List Char, (∀ c ∈ list, isBlank c = false) →
      list.dropWhile isBlank = list := by
    intro list hlist
    obtain _ | ⟨c, later⟩ := list
    · rfl
    · exact List.dropWhile_cons_of_neg (by simp [hlist c List.mem_cons_self])
  rw [trim, hdrop text h, hdrop text.reverse (by simpa using h), List.reverse_reverse]

end SplitHello.Text
