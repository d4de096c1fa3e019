import SplitHello.Json.Number
import SplitHello.Proofs.Cursor

/-!
# Proofs/Json/Number — how numbers of a document are written

A number that is passed over is a whole part without leading zeros, and then a fraction and an
exponent, each of them or not.  Digits are taken as far as they go, and so are the parts: a point or
an exponent's letter behind the digits is part of the number.

* `digits_eq_ok_iff` — digits are all there are;
* `skipNumeral_eq_ok_iff` — a number is passed over exactly if one is written there.
-/

namespace SplitHello.Json

variable {text rest list : List Char}

/-- One or more digits, and no further one behind them. -/
def Digits (text digits rest : List Char) : Prop :=
  text = digits ++ rest ∧ digits ≠ [] ∧ (∀ c ∈ digits, c.isDigit = true) ∧
    ∀ c ∈ rest.head?, c.isDigit = false

/-- A fraction, or none where no point stands. -/
inductive Fraction : List Char → List Char → Prop
  | none {text : List Char} : text.head? ≠ some '.' → Fraction text text
  | some {text digits rest : List Char} : Digits text digits rest → Fraction ('.' :: text) rest

/-- Digits behind a sign or without one. -/
inductive SignedDigits : List Char → List Char → Prop
  | unsigned {text digits rest : List Char} : Digits text digits rest → SignedDigits text rest
  | signed {sign : Char} {text digits rest : List Char} :
      sign = '-' ∨ sign = '+' → Digits text digits rest → SignedDigits (sign :: text) rest

/-- An exponent, or none where no letter of one stands. -/
inductive Exponent : List Char → List Char → Prop
  | none {text : List Char} :
      text.head? ≠ some 'e' → text.head? ≠ some 'E' → Exponent text text
  | some {letter : Char} {text rest : List Char} :
      letter = 'e' ∨ letter = 'E' → SignedDigits text rest → Exponent (letter :: text) rest

/-- A number without its sign. -/
inductive Number : List Char → List Char → Prop
  | parts {text digits later later' rest : List Char} :
      Digits text digits later → ¬ (digits.head? = some '0' ∧ digits.length ≠ 1) →
      Fraction later later' → Exponent later' rest → Number text rest

/-- **Digits are taken as far as they go.** -/
theorem digits_eq_ok_iff : digits text = .ok (list, rest) ↔ Digits text list rest := by
  constructor
  · intro h
    rw [digits.eq_def] at h
    split at h
    · cases h
    · rename_i c later
      split at h
      · rename_i hdigit
        obtain ⟨rfl, rfl⟩ := Prod.mk.inj (Except.ok.inj h)
        refine ⟨List.takeWhile_append_dropWhile.symm, ?_, ?_, fun d hd => ?_⟩
        · simp [List.takeWhile_cons_of_pos hdigit]
        · exact List.all_eq_true.mp List.all_takeWhile
        · have := List.head?_dropWhile_not Char.isDigit (c :: later)
          rwa [Option.mem_def.mp hd] at this
      · cases h
  · rintro ⟨rfl, hne, hdigits, hrest⟩
    obtain ⟨c, later, rfl⟩ := List.exists_cons_of_ne_nil hne
    have hstop : rest.takeWhile Char.isDigit = [] ∧ rest.dropWhile Char.isDigit = rest := by
      cases rest with
      | nil => exact ⟨rfl, rfl⟩
      | cons c rest => simp [hrest c rfl]
    have hc := hdigits c List.mem_cons_self
    rw [digits.eq_def, List.takeWhile_append_of_pos hdigits,
      List.dropWhile_append_of_pos hdigits, hstop.1, hstop.2, List.append_nil]
    exact if_pos hc

theorem Digits.isDigit_head {c : Char} (h : Digits (c :: text) list rest) : c.isDigit = true := by
  obtain ⟨htext, hne, hdigits, -⟩ := h
  obtain ⟨d, later, rfl⟩ := List.exists_cons_of_ne_nil hne
  obtain rfl := (List.cons.inj htext).1
  exact hdigits c List.mem_cons_self

theorem Digits.length_lt (h : Digits text list rest) : rest.length < text.length := by
  obtain ⟨rfl, hne, -⟩ := h
  have := List.length_pos_iff.mpr hne
  simp only [List.length_append]
  omega

theorem head?_ne_some {c : Char} (h : ∀ later, text = c :: later → False) :
    text.head? ≠ some c := by
  intro hhead
  obtain ⟨later, rfl⟩ := List.head?_eq_some_iff.mp hhead
  exact h later rfl

/-- What is told of the part ahead does not move the place behind it. -/
theorem exists_map_eq_ok_iff {ε α β γ : Type} {first : Except ε (α × γ)} {f : α × γ → β × γ} {c : γ}
    (hf : ∀ p, (f p).2 = p.2) :
    (∃ b, first.map f = .ok (b, c)) ↔ ∃ a, first = .ok (a, c) := by
  simp only [map_eq_ok_iff, Prod.exists]
  constructor
  · rintro ⟨b, a, c', h, heq⟩
    obtain rfl : c' = c := (hf (a, c')).symm.trans (congrArg Prod.snd heq)
    exact ⟨a, h⟩
  · rintro ⟨a, h⟩
    exact ⟨(f (a, c)).1, a, c, h, Prod.ext rfl (hf (a, c))⟩

theorem fractionPart_eq_ok_iff :
    (∃ list, fractionPart text = .ok (list, rest)) ↔ Fraction text rest := by
  fun_cases fractionPart text with
  | case1 text =>
      simp only [digits_eq_ok_iff]
      constructor
      · rintro ⟨list, h⟩
        exact .some h
      · rintro (h | h)
        · exact absurd rfl h
        · exact ⟨_, h⟩
  | case2 =>
      rename_i hpoint
      constructor
      · rintro ⟨_, ⟨⟩⟩
        exact .none (head?_ne_some hpoint)
      · rintro (_ | _)
        · exact ⟨[], rfl⟩
        · exact (hpoint _ rfl).elim

/-- Behind a sign there are digits. -/
theorem signedDigits_sign_iff {sign : Char} (h : sign = '-' ∨ sign = '+') :
    SignedDigits (sign :: text) rest ↔ ∃ list, Digits text list rest := by
  constructor
  · rintro (hdigits | ⟨-, hdigits⟩)
    · have hsign := hdigits.isDigit_head
      rcases h with rfl | rfl <;> simp at hsign
    · exact ⟨_, hdigits⟩
  · rintro ⟨_, hdigits⟩
    exact .signed h hdigits

theorem signedExponent_eq_ok_iff :
    (∃ n, signedExponent text = .ok (n, rest)) ↔ SignedDigits text rest := by
  fun_cases signedExponent text with
  | case1 text =>
      rw [exists_map_eq_ok_iff fun _ => by rfl, signedDigits_sign_iff (.inl rfl)]
      simp only [digits_eq_ok_iff]
  | case2 text =>
      rw [exists_map_eq_ok_iff fun _ => by rfl, signedDigits_sign_iff (.inr rfl)]
      simp only [digits_eq_ok_iff]
  | case3 =>
      rename_i hminus hplus
      rw [exists_map_eq_ok_iff fun _ => by rfl]
      simp only [digits_eq_ok_iff]
      constructor
      · rintro ⟨_, h⟩
        exact .unsigned h
      · rintro (h | ⟨rfl | rfl, _⟩)
        · exact ⟨_, h⟩
        · exact (hminus _ rfl).elim
        · exact (hplus _ rfl).elim

/-- Behind the letter of an exponent there are signed digits. -/
theorem exponent_letter_iff {letter : Char} (h : letter = 'e' ∨ letter = 'E') :
    Exponent (letter :: text) rest ↔ SignedDigits text rest := by
  constructor
  · rintro (⟨hlower, hupper⟩ | ⟨-, hsigned⟩)
    · rcases h with rfl | rfl
      · exact absurd rfl hlower
      · exact absurd rfl hupper
    · exact hsigned
  · exact .some h

theorem exponentPart_eq_ok_iff :
    (∃ n, exponentPart text = .ok (n, rest)) ↔ Exponent text rest := by
  fun_cases exponentPart text with
  | case1 text =>
      rw [exists_map_eq_ok_iff fun _ => by rfl, signedExponent_eq_ok_iff,
        exponent_letter_iff (.inl rfl)]
  | case2 text =>
      rw [exists_map_eq_ok_iff fun _ => by rfl, signedExponent_eq_ok_iff,
        exponent_letter_iff (.inr rfl)]
  | case3 =>
      rename_i hlower hupper
      constructor
      · rintro ⟨_, ⟨⟩⟩
        exact .none (head?_ne_some hlower) (head?_ne_some hupper)
      · rintro (_ | ⟨rfl | rfl, _⟩)
        · exact ⟨none, rfl⟩
        · exact (hlower _ rfl).elim
        · exact (hupper _ rfl).elim

theorem wholePart_eq_ok_iff : wholePart text = .ok (list, rest) ↔
    Digits text list rest ∧ ¬ (list.head? = some '0' ∧ list.length ≠ 1) := by
  simp only [wholePart, bind_eq_ok_iff, Prod.exists, digits_eq_ok_iff]
  constructor
  · rintro ⟨_, _, h, hzero⟩
    split at hzero
    · cases hzero
    · rename_i hno
      obtain ⟨rfl, rfl⟩ := Prod.mk.inj (Except.ok.inj hzero)
      exact ⟨h, hno⟩
  · rintro ⟨h, hno⟩
    exact ⟨list, rest, h, if_neg hno⟩

/-- **A number is passed over exactly if one is written there.** -/
theorem skipNumeral_eq_ok_iff : skipNumeral text = .ok rest ↔ Number text rest := by
  have hnumeral : skipNumeral text = .ok rest ↔ ∃ n, numeral false text = .ok (n, rest) := by
    rw [skipNumeral]
    split <;> simp [*]
  simp only [hnumeral, numeral, bind_eq_ok_iff, Prod.exists, wholePart_eq_ok_iff]
  constructor
  · rintro ⟨_, _, _, ⟨hdigits, hzero⟩, _, _, hfraction, _, _, hexponent, h⟩
    obtain ⟨_, rfl⟩ := Prod.mk.inj (Except.ok.inj h)
    exact ⟨hdigits, hzero, fractionPart_eq_ok_iff.mp ⟨_, hfraction⟩,
      exponentPart_eq_ok_iff.mp ⟨_, hexponent⟩⟩
  · rintro ⟨hdigits, hzero, hfraction, hexponent⟩
    obtain ⟨_, hfraction⟩ := fractionPart_eq_ok_iff.mpr hfraction
    obtain ⟨_, hexponent⟩ := exponentPart_eq_ok_iff.mpr hexponent
    exact ⟨_, _, _, ⟨hdigits, hzero⟩, _, _, hfraction, _, _, hexponent, rfl⟩

theorem Fraction.length_le (h : Fraction text rest) : rest.length ≤ text.length := by
  cases h with
  | none => exact Nat.le_refl _
  | some h => exact Nat.le_of_lt (Nat.lt_succ_of_lt h.length_lt)

theorem SignedDigits.length_lt (h : SignedDigits text rest) : rest.length < text.length := by
  cases h with
  | unsigned h => exact h.length_lt
  | signed _ h => exact Nat.lt_succ_of_lt h.length_lt

theorem Exponent.length_le (h : Exponent text rest) : rest.length ≤ text.length := by
  cases h with
  | none => exact Nat.le_refl _
  | some _ h => exact Nat.le_of_lt (Nat.lt_succ_of_lt h.length_lt)

theorem Number.length_lt (h : Number text rest) : rest.length < text.length := by
  obtain ⟨hdigits, -, hfraction, hexponent⟩ := h
  exact Nat.lt_of_le_of_lt (Nat.le_trans hexponent.length_le hfraction.length_le)
    hdigits.length_lt

end SplitHello.Json
