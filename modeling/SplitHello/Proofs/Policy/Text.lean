import SplitHello.Policy.Interval
import SplitHello.Proofs.Text.Numeral

/-!
# Proofs/Policy/Text — which texts are those of an interval

A text says two bounds if it is one numeral, for both of them, or two numerals with the first hyphen
between them.  Nothing else decides what is read: bounds in order are an interval, bounds out of
order are reported as such, and a text that says no bounds is reported as it is.

* `ofText_eq_ofBounds`, `ofText_eq_malformed` — the two cases of reading a text;
* `says_text` — the text of an interval says its bounds;
* `ofText_closed_form` — texts read, texts refused, and intervals written and read again.
-/

namespace SplitHello.Interval

open Text (IsNumeral numeral64_eq_ok_iff isNumeral_repr)

variable {iv : Interval} {x y : UInt64} {text : String} {list first second : List Char}

/-- A text says the bounds of an interval: one numeral for both, or one for each with the first
hyphen between them.  Blanks around a numeral do not matter. -/
inductive Says : List Char → UInt64 → UInt64 → Prop
  | one {text : List Char} {x : UInt64} :
      '-' ∉ text → IsNumeral (Text.trim text) x → Says text x x
  | range {first second : List Char} {x y : UInt64} :
      '-' ∉ first → IsNumeral (Text.trim first) x → IsNumeral (Text.trim second) y →
        Says (first ++ '-' :: second) x y

/-! ## The cut -/

theorem forall_ne_of_not_mem (h : '-' ∉ list) : ∀ c ∈ list, decide (c ≠ '-') = true :=
  fun _ hc => decide_eq_true (fun heq => h (heq ▸ hc))

theorem cutAtHyphen_of_not_mem (h : '-' ∉ list) : cutAtHyphen list = none := by
  have hdrop : (list ++ []).dropWhile (· ≠ '-') = [] :=
    List.dropWhile_append_of_pos (forall_ne_of_not_mem h)
  rw [cutAtHyphen, ← List.append_nil list, hdrop]

/-- A text is cut at its first hyphen. -/
theorem cutAtHyphen_append (h : '-' ∉ first) :
    cutAtHyphen (first ++ '-' :: second) = some (first, second) := by
  rw [cutAtHyphen, List.dropWhile_append_of_pos (forall_ne_of_not_mem h),
    List.takeWhile_append_of_pos (forall_ne_of_not_mem h)]
  simp

/-! ## Bounds -/

theorem ofBounds_self (x : UInt64) : ofBounds x x = .ok (single x) :=
  dif_pos (UInt64.le_refl x)

theorem ofBounds_min_max (iv : Interval) : ofBounds iv.min iv.max = .ok iv :=
  dif_pos iv.min_le_max

/-- Bounds are an interval exactly if it is the one between them. -/
theorem ofBounds_eq_ok_iff : ofBounds x y = .ok iv ↔ x = iv.min ∧ y = iv.max := by
  constructor
  · intro h
    rw [ofBounds] at h
    split at h
    · obtain rfl := Except.ok.inj h
      exact ⟨rfl, rfl⟩
    · cases h
  · rintro ⟨rfl, rfl⟩
    exact ofBounds_min_max iv

/-- Bounds are out of order exactly if they are reported so. -/
theorem ofBounds_eq_error_iff {e : PolicyError} :
    ofBounds x y = .error e ↔ e = .invalidRange x y ∧ y < x := by
  by_cases h : x ≤ y
  · simp [ofBounds, h]
  · simp [ofBounds, h, UInt64.not_le.mp h, eq_comm]

/-! ## Reading -/

/-- **The bounds that a text says are those it is read as.** -/
theorem ofText_eq_ofBounds (h : Says text.toList x y) : ofText text = ofBounds x y := by
  generalize htext : text.toList = list at h
  cases h with
  | one hno hx =>
      rw [ofText, htext, cutAtHyphen_of_not_mem hno, ofBounds_self]
      simp only [numeral64_eq_ok_iff.mpr hx]
  | range hno hx hy =>
      rw [ofText, htext, cutAtHyphen_append hno]
      simp only [numeral64_eq_ok_iff.mpr hx, numeral64_eq_ok_iff.mpr hy]

/-- **A text that says no bounds is malformed.** -/
theorem ofText_eq_malformed (h : ∀ x y, ¬ Says text.toList x y) :
    ofText text = .error (.malformed text) := by
  by_cases hmem : '-' ∈ text.toList
  · obtain ⟨first, second, htext, hno⟩ := List.eq_append_cons_of_mem hmem
    rw [ofText, htext, cutAtHyphen_append hno]
    rw [htext] at h
    dsimp only
    split
    · rename_i x y hx hy
      exact absurd (.range hno (numeral64_eq_ok_iff.mp hx) (numeral64_eq_ok_iff.mp hy)) (h x y)
    · rfl
  · rw [ofText, cutAtHyphen_of_not_mem hmem]
    dsimp only
    split
    · rename_i x hx
      exact absurd (.one hmem (numeral64_eq_ok_iff.mp hx)) (h x x)
    · rfl

/-- Bounds are read off a text exactly if it says them. -/
theorem ofText_eq_ok_iff : ofText text = .ok iv ↔ Says text.toList iv.min iv.max := by
  constructor
  · intro h
    by_cases hsaid : ∃ x y, Says text.toList x y
    · obtain ⟨x, y, hsaid⟩ := hsaid
      obtain ⟨rfl, rfl⟩ := ofBounds_eq_ok_iff.mp (ofText_eq_ofBounds hsaid ▸ h)
      exact hsaid
    · rw [ofText_eq_malformed (by simpa using hsaid)] at h
      cases h
  · exact fun h => (ofText_eq_ofBounds h).trans (ofBounds_min_max iv)

/-- What is wrong with a text: its bounds are out of order, or it says none. -/
theorem ofText_eq_error_iff {e : PolicyError} : ofText text = .error e ↔
    (∃ x y, e = .invalidRange x y ∧ Says text.toList x y ∧ y < x) ∨
      (e = .malformed text ∧ ∀ x y, ¬ Says text.toList x y) := by
  by_cases hsaid : ∃ x y, Says text.toList x y
  · obtain ⟨x, y, hsaid⟩ := hsaid
    rw [ofText_eq_ofBounds hsaid, ofBounds_eq_error_iff]
    constructor
    · exact fun h => .inl ⟨x, y, h.1, hsaid, h.2⟩
    · rintro (⟨x', y', rfl, hsaid', hlt⟩ | h)
      · exact ofBounds_eq_error_iff.mp ((ofText_eq_ofBounds hsaid).symm.trans
          ((ofText_eq_ofBounds hsaid').trans (ofBounds_eq_error_iff.mpr ⟨rfl, hlt⟩)))
      · exact absurd hsaid (h.2 x y)
  · have hno : ∀ x y, ¬ Says text.toList x y := by simpa using hsaid
    rw [ofText_eq_malformed hno, Except.error.injEq]
    constructor
    · exact fun h => .inr ⟨h.symm, hno⟩
    · rintro (⟨x, y, -, h, -⟩ | h)
      · exact absurd h (hno x y)
      · exact h.1.symm

/-! ## Writing -/

/-- The text of an interval is digits and hyphens. -/
theorem isDigit_or_hyphen_of_mem_text {c : Char} (h : c ∈ iv.text.toList) :
    c.isDigit = true ∨ c = '-' := by
  rw [Interval.text] at h
  split at h
  · exact .inl (Text.isDigit_of_mem_repr h)
  · simp only [String.toList_append, List.mem_append] at h
    obtain (h | h) | h := h
    · exact .inl (Text.isDigit_of_mem_repr h)
    · exact .inr (by simpa using h)
    · exact .inl (Text.isDigit_of_mem_repr h)

theorem hyphen_not_mem_repr (n : Nat) : '-' ∉ n.repr.toList :=
  fun h => absurd (Text.isDigit_of_mem_repr h) (by decide)

/-- The digits of a number stand without blanks, so they are a numeral of it as they are. -/
theorem isNumeral_trim_repr (x : UInt64) : IsNumeral (Text.trim x.toNat.repr.toList) x := by
  rw [Text.trim_eq_self fun _ hc => Text.isBlank_of_isDigit (Text.isDigit_of_mem_repr hc)]
  exact isNumeral_repr x

/-- **The text of an interval says its bounds.** -/
theorem says_text (iv : Interval) : Says iv.text.toList iv.min iv.max := by
  rw [Interval.text]
  split
  · rename_i h
    rw [← show iv.min = iv.max from eq_of_beq h]
    exact .one (hyphen_not_mem_repr _) (isNumeral_trim_repr iv.min)
  · simp only [String.toList_append, List.append_assoc]
    exact .range (hyphen_not_mem_repr _) (isNumeral_trim_repr iv.min) (isNumeral_trim_repr iv.max)

theorem ofText_text (iv : Interval) : ofText iv.text = .ok iv :=
  ofText_eq_ok_iff.mpr (says_text iv)

/-- **A text is read as the bounds it says**, unless they are out of order; a text that says none is
malformed.  Intervals survive being written and read again, so no two are written alike. -/
theorem ofText_closed_form (iv other : Interval) (text : String) :
    ofText iv.text = .ok iv ∧
    (ofText text = .ok iv ↔ Says text.toList iv.min iv.max) ∧
    (∀ x y, ofText text = .error (.invalidRange x y) ↔ Says text.toList x y ∧ y < x) ∧
    (∀ t, ofText text = .error (.malformed t) ↔ t = text ∧ ∀ x y, ¬ Says text.toList x y) ∧
    ((ofText text).bind fun found => ofText found.text) = ofText text ∧
    (iv.text = other.text ↔ iv = other) := by
  refine ⟨ofText_text iv, ofText_eq_ok_iff, fun x y => ?_, fun t => ?_, ?_, ?_⟩
  · simp only [ofText_eq_error_iff, PolicyError.invalidRange.injEq, reduceCtorEq, false_and,
      or_false]
    constructor
    · rintro ⟨_, _, ⟨rfl, rfl⟩, h⟩
      exact h
    · exact fun h => ⟨x, y, ⟨rfl, rfl⟩, h⟩
  · simp [ofText_eq_error_iff]
  · cases ofText text with
    | error e => rfl
    | ok found => exact ofText_text found
  · refine ⟨fun h => ?_, fun h => h ▸ rfl⟩
    have hread := ofText_text iv
    rw [h, ofText_text] at hread
    exact (Except.ok.inj hread).symm

example : (ofText " 007-+9 ").toOption = some ⟨7, 9, by decide⟩ := by decide +kernel

end SplitHello.Interval
