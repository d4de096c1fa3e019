import Mathlib.Data.List.Basic
import Mathlib.Data.List.Chain
import Mathlib.Tactic.SplitIfs
import SplitHello.Text.Quoted

/-!
# Proofs/Text/Quoted — texts in quotes

What stands between the quotes shows as itself, whatever the text, and says which text it is.

* `isChain_hiddenRanges`, `isChain_extendingRanges` — the ranges are in order and apart;
* `isUnprintable_of_isBlank` — no white space shows as itself but the space;
* `not_isUnprintable_of_ascii` — what shows as itself of the characters that have one byte;
* `not_isUnprintable_of_mem_quoted` — all of a quoted text shows as itself;
* `quoted_injective` — different texts are quoted differently.
-/

namespace SplitHello.Text

variable {c d : Char} {n m : Nat}

/-! ## The ranges -/

theorem isChain_hiddenRanges :
    hiddenRanges.IsChain fun range next => range.1 ≤ range.2 ∧ range.2 + 1 < next.1 := by
  decide +kernel

theorem isChain_extendingRanges :
    extendingRanges.IsChain fun range next => range.1 ≤ range.2 ∧ range.2 + 1 < next.1 := by
  decide +kernel

/-- How many code points each property has. -/
example : hiddenRanges.foldl (fun size range => size + (range.2 + 1 - range.1)) 0 = 954499 ∧
    extendingRanges.foldl (fun size range => size + (range.2 + 1 - range.1)) 0 = 2232 := by
  decide +kernel

/-- **No white space shows as itself but the space.** -/
theorem isUnprintable_of_isBlank (hblank : isBlank c = true) (hspace : c ≠ ' ') :
    isUnprintable c = true := by
  have hrest : inRanges (blankRanges.erase (0x20, 0x20)) c = true := by
    obtain ⟨range, hrange, hlow, hhigh⟩ := inRanges_eq_true_iff.mp hblank
    refine inRanges_eq_true_iff.mpr ⟨range, (List.mem_erase_of_ne ?_).mpr hrange, hlow, hhigh⟩
    rintro rfl
    exact hspace (Char.toNat_inj.mp (Nat.le_antisymm hhigh hlow))
  have hhidden : inRanges hiddenRanges c = true :=
    inRanges_of_within (by decide +kernel) hrest
  rw [isUnprintable, hhidden, Bool.or_true]

/-- **From the space to the tilde all characters show as themselves.** -/
theorem not_isUnprintable_of_ascii (hlow : 0x20 ≤ c.toNat) (hhigh : c.toNat ≤ 0x7e) :
    isUnprintable c = false := by
  have hextending : inRanges extendingRanges c = false :=
    inRanges_eq_false (by decide +kernel) hlow hhigh
  have hhidden : inRanges hiddenRanges c = false :=
    inRanges_eq_false (by decide +kernel) hlow hhigh
  rw [isUnprintable, hextending, hhidden, Bool.or_false]

/-! ## Hexadecimal digits -/

theorem exists_digitChar_of_mem_toDigits (h : c ∈ Nat.toDigits 16 n) :
    ∃ digit < 16, c = Nat.digitChar digit := by
  induction n using Nat.strongRecOn with
  | ind n ih =>
    rw [Nat.toDigits_eq_if (by decide)] at h
    split at h
    · next hn => exact ⟨n, hn, List.mem_singleton.mp h⟩
    · next hn =>
      rcases List.mem_append.mp h with h | h
      · exact ih (n / 16) (Nat.div_lt_self (by omega) (by decide)) h
      · exact ⟨n % 16, Nat.mod_lt n (by decide), List.mem_singleton.mp h⟩

theorem digitChar_inj : ∀ n < 16, ∀ m < 16, Nat.digitChar n = Nat.digitChar m → n = m := by
  decide

/-- **Numbers with the same digits are the same.** -/
theorem toDigits_inj (h : Nat.toDigits 16 n = Nat.toDigits 16 m) : n = m := by
  induction n using Nat.strongRecOn generalizing m with
  | ind n ih =>
    rw [Nat.toDigits_eq_if (n := n) (by decide), Nat.toDigits_eq_if (n := m) (by decide)] at h
    split at h <;> split at h
    · next hn hm => exact digitChar_inj n hn m hm (List.singleton_inj.mp h)
    · have hnil := (List.append_inj' ((List.nil_append _).trans h) rfl).1
      exact absurd hnil.symm Nat.toDigits_ne_nil
    · have hnil := (List.append_inj' (h.trans (List.nil_append _).symm) rfl).1
      exact absurd hnil Nat.toDigits_ne_nil
    · next hn hm =>
      obtain ⟨hfront, hlast⟩ := List.append_inj' h rfl
      have hdiv := ih (n / 16) (Nat.div_lt_self (by omega) (by decide)) hfront
      have hmod := digitChar_inj _ (Nat.mod_lt n (by decide)) _ (Nat.mod_lt m (by decide))
        (List.singleton_inj.mp hlast)
      omega

/-! ## Escapes -/

/-- The characters that have an escape of one letter, and that letter. -/
def letters : List (Char × Char) :=
  [('"', '"'), ('\\', '\\'), ('\t', 't'), ('\n', 'n'), ('\r', 'r'), ('\x00', '0')]

/-- How a character is written between the quotes: behind a backslash by a letter, behind one by its
code point, or as itself. -/
inductive Escaped (c : Char) : List Char → Prop
  | letter {l : Char} (h : (c, l) ∈ letters) : Escaped c ['\\', l]
  | code (h : isUnprintable c = true) :
      Escaped c (['\\', 'u', '{'] ++ Nat.toDigits 16 c.toNat ++ ['}'])
  | itself (h : isUnprintable c = false) (hslash : c ≠ '\\') (hquote : c ≠ '"') : Escaped c [c]

theorem toList_hexDigits (n : Nat) : (hexDigits 1 n).toList = Nat.toDigits 16 n := by
  have hpos : 0 < (Nat.toDigits 16 n).length := Nat.length_toDigits_pos
  rw [hexDigits, String.toList_ofList, Nat.sub_eq_zero_of_le hpos]
  rfl

theorem escaped_escape (c : Char) : Escaped c (escape c).toList := by
  unfold escape
  split_ifs with hquote hslash htab hnewline hreturn hnull hcode
  · exact hquote ▸ .letter (by decide)
  · exact hslash ▸ .letter (by decide)
  · exact htab ▸ .letter (by decide)
  · exact hnewline ▸ .letter (by decide)
  · exact hreturn ▸ .letter (by decide)
  · exact hnull ▸ .letter (by decide)
  · rw [String.toList_append, String.toList_append, toList_hexDigits]
    exact .code hcode
  · rw [String.toList_singleton]
    exact .itself (Bool.eq_false_iff.mpr hcode) hslash hquote

theorem toList_quoted (text : String) :
    (quoted text).toList = '"' :: (text.toList.flatMap fun c => (escape c).toList) ++ ['"'] := by
  rw [quoted, String.toList_append, String.toList_append, String.toList_join, List.flatMap_map]
  rfl

theorem not_isUnprintable_of_mem_toDigits (h : c ∈ Nat.toDigits 16 n) :
    isUnprintable c = false := by
  obtain ⟨digit, hdigit, rfl⟩ := exists_digitChar_of_mem_toDigits h
  have hall : ∀ digit < 16, 0x20 ≤ (Nat.digitChar digit).toNat ∧
      (Nat.digitChar digit).toNat ≤ 0x7e := by decide
  exact not_isUnprintable_of_ascii (hall digit hdigit).1 (hall digit hdigit).2

theorem brace_not_mem_toDigits (n : Nat) : '}' ∉ Nat.toDigits 16 n := by
  intro h
  obtain ⟨digit, hdigit, heq⟩ := exists_digitChar_of_mem_toDigits h
  have hall : ∀ digit < 16, '}' ≠ Nat.digitChar digit := by decide
  exact hall digit hdigit heq

theorem not_isUnprintable_of_mem_letters {l : Char} (h : (c, l) ∈ letters) :
    isUnprintable l = false := by
  have hall : letters.all (fun pair => 0x20 ≤ pair.2.toNat && pair.2.toNat ≤ 0x7e) = true := by
    decide
  have hl : 0x20 ≤ l.toNat ∧ l.toNat ≤ 0x7e := by
    simpa using List.all_eq_true.mp hall (c, l) h
  exact not_isUnprintable_of_ascii hl.1 hl.2

/-- An escape shows as itself. -/
theorem Escaped.not_isUnprintable_of_mem {shown : List Char} (h : Escaped c shown)
    (hd : d ∈ shown) : isUnprintable d = false := by
  cases h with
  | letter h =>
      obtain rfl | hd := List.mem_cons.mp hd
      · exact not_isUnprintable_of_ascii (by decide) (by decide)
      · exact List.mem_singleton.mp hd ▸ not_isUnprintable_of_mem_letters h
  | code h =>
      rw [List.mem_append, List.mem_append] at hd
      obtain (hd | hd) | hd := hd
      · simp only [List.mem_cons, List.not_mem_nil, or_false] at hd
        rcases hd with rfl | rfl | rfl <;> exact not_isUnprintable_of_ascii (by decide) (by decide)
      · exact not_isUnprintable_of_mem_toDigits hd
      · obtain rfl := List.mem_singleton.mp hd
        exact not_isUnprintable_of_ascii (by decide) (by decide)
  | itself h => exact List.mem_singleton.mp hd ▸ h

/-- **All of a quoted text shows as itself.** -/
theorem not_isUnprintable_of_mem_quoted {text : String} (h : c ∈ (quoted text).toList) :
    isUnprintable c = false := by
  have hquote : isUnprintable '"' = false := not_isUnprintable_of_ascii (by decide) (by decide)
  rw [toList_quoted] at h
  rcases List.mem_append.mp h with h | h
  · rcases List.mem_cons.mp h with rfl | h
    · exact hquote
    · obtain ⟨d, -, hc⟩ := List.mem_flatMap.mp h
      exact (escaped_escape d).not_isUnprintable_of_mem hc
  · exact List.mem_singleton.mp h ▸ hquote

theorem letters_inj {l : Char} (hc : (c, l) ∈ letters) (hd : (d, l) ∈ letters) : c = d := by
  simp only [letters, List.mem_cons, List.not_mem_nil, or_false, Prod.mk.injEq] at hc hd
  grind

theorem not_mem_letters (c : Char) : (c, 'u') ∉ letters := by
  simp [letters]

/-- What stands ahead of the first of some character, and behind it. -/
theorem eq_of_append_cons_eq {front front' later later' : List Char} (h : c ∉ front)
    (h' : c ∉ front') (heq : front ++ c :: later = front' ++ c :: later') :
    front = front' ∧ later = later' := by
  rcases List.append_eq_append_iff.mp heq with ⟨between, rfl, hlater⟩ | ⟨between, rfl, hlater⟩
  · obtain _ | ⟨first, between⟩ := between
    · exact ⟨(List.append_nil front).symm, (List.cons.inj hlater).2⟩
    · obtain rfl := (List.cons.inj hlater).1
      exact absurd (List.mem_append_right front List.mem_cons_self) h'
  · obtain _ | ⟨first, between⟩ := between
    · exact ⟨List.append_nil front', (List.cons.inj hlater).2.symm⟩
    · obtain rfl := (List.cons.inj hlater).1
      exact absurd (List.mem_append_right front' List.mem_cons_self) h

/-- **Escapes can be told apart**, whatever stands behind them. -/
theorem Escaped.append_inj {shown shown' later later' : List Char} (h : Escaped c shown)
    (h' : Escaped d shown') (heq : shown ++ later = shown' ++ later') :
    c = d ∧ later = later' := by
  cases h with
  | letter h =>
      cases h' with
      | letter h' =>
          obtain ⟨rfl, hlater⟩ := List.cons.inj (List.cons.inj heq).2
          exact ⟨letters_inj h h', hlater⟩
      | code h' =>
          obtain ⟨rfl, -⟩ := List.cons.inj (List.cons.inj heq).2
          exact absurd h (not_mem_letters c)
      | itself h' hslash => exact absurd (List.cons.inj heq).1.symm hslash
  | code h =>
      cases h' with
      | letter h' =>
          obtain ⟨rfl, -⟩ := List.cons.inj (List.cons.inj heq).2
          exact absurd h' (not_mem_letters d)
      | code h' =>
          have hdigits : Nat.toDigits 16 c.toNat ++ '}' :: later =
              Nat.toDigits 16 d.toNat ++ '}' :: later' := by
            simpa using heq
          obtain ⟨hdigits, hlater⟩ := eq_of_append_cons_eq (brace_not_mem_toDigits _)
            (brace_not_mem_toDigits _) hdigits
          exact ⟨Char.toNat_inj.mp (toDigits_inj hdigits), hlater⟩
      | itself h' hslash => exact absurd (List.cons.inj heq).1.symm hslash
  | itself h hslash =>
      cases h' with
      | letter | code => exact absurd (List.cons.inj heq).1 hslash
      | itself h' => exact List.cons.inj heq

/-- An escape is not empty. -/
theorem Escaped.ne_nil {shown : List Char} (h : Escaped c shown) : shown ≠ [] := by
  cases h <;> exact List.cons_ne_nil _ _

theorem flatMap_escape_inj {text text' : List Char}
    (h : (text.flatMap fun c => (escape c).toList) = text'.flatMap fun c => (escape c).toList) :
    text = text' := by
  induction text generalizing text' with
  | nil =>
      obtain _ | ⟨d, text'⟩ := text'
      · rfl
      · exact absurd (List.append_eq_nil_iff.mp h.symm).1 (escaped_escape d).ne_nil
  | cons c text ih =>
      obtain _ | ⟨d, text'⟩ := text'
      · exact absurd (List.append_eq_nil_iff.mp h).1 (escaped_escape c).ne_nil
      · obtain ⟨rfl, hlater⟩ := (escaped_escape c).append_inj (escaped_escape d) h
        rw [ih hlater]

/-- **Different texts are quoted differently.** -/
theorem quoted_injective : Function.Injective quoted := by
  intro text text' h
  have hlist := congrArg String.toList h
  rw [toList_quoted, toList_quoted] at hlist
  have hshown := (List.cons.inj (List.append_cancel_right hlist)).2
  exact String.toList_inj.mp (flatMap_escape_inj hshown)

/-- Marks, a sign that shows nothing, and code points that are not assigned. -/
example : quoted "\u0591\u0e31\u0600\u0378" =
    "\"\\u\x7b591\x7d\\u\x7be31\x7d\\u\x7b600\x7d\\u\x7b378\x7d\"" := by
  decide +kernel

end SplitHello.Text
