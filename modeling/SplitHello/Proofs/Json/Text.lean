import SplitHello.Json.Text
import SplitHello.Proofs.Cursor

/-!
# Proofs/Json/Text — how blanks, words and strings of a document are written

A part of a document stands between two places: the text from where it starts, and the text after
it.  Each part has a relation of its own between the two, which says how it is written, and each
reader succeeds exactly where its relation holds.

* `skipBlank_eq_cons_iff`, `literal_eq_ok_iff` — blanks and words;
* `codePoint_eq_ok_iff` — an escape by code unit is one unit, or two that are a surrogate pair;
* `characters_eq_ok_iff` — a row of letters up to the closing quote, as long as the fuel lasts;
* `string_eq_ok_iff`, `skipString_eq_ok_iff` — the two readers of strings;
* `Spelled.quoted` — a string that can be read can be passed over.
-/

namespace SplitHello.Json

variable {c : Char} {n : Nat} {text later rest word : List Char}

/-! ## Blanks and words -/

/-- Only blanks stand between two places. -/
def Blanks (text rest : List Char) : Prop :=
  ∃ blanks : List Char, text = blanks ++ rest ∧ ∀ c ∈ blanks, isBlank c = true

theorem Blanks.refl (text : List Char) : Blanks text text := ⟨[], rfl, by simp⟩

theorem Blanks.length_le (h : Blanks text rest) : rest.length ≤ text.length := by
  obtain ⟨blanks, rfl, -⟩ := h
  simp

theorem Blanks.length_lt (h : Blanks text (c :: rest)) : rest.length < text.length :=
  h.length_le

theorem blanks_skipBlank (text : List Char) : Blanks text (skipBlank text) :=
  ⟨text.takeWhile isBlank, List.takeWhile_append_dropWhile.symm, fun c hc => by
    simpa using List.all_eq_true.mp (List.all_takeWhile) c hc⟩

theorem blanks_of_eq (h : skipBlank text = rest) : Blanks text rest := h ▸ blanks_skipBlank text

theorem Blanks.skipBlank_eq (h : Blanks text rest) : skipBlank text = skipBlank rest := by
  obtain ⟨blanks, rfl, hblanks⟩ := h
  exact List.dropWhile_append_of_pos hblanks

@[simp] theorem skipBlank_skipBlank (text : List Char) :
    skipBlank (skipBlank text) = skipBlank text :=
  (blanks_skipBlank text).skipBlank_eq.symm

theorem skipBlank_cons (h : isBlank c = false) (text : List Char) :
    skipBlank (c :: text) = c :: text :=
  List.dropWhile_cons_of_neg (by simp [h])

/-- **A character is the next one behind the blanks** exactly if only blanks are ahead of it. -/
theorem skipBlank_eq_cons_iff (hc : isBlank c = false) :
    skipBlank text = c :: rest ↔ Blanks text (c :: rest) :=
  ⟨blanks_of_eq, fun h => h.skipBlank_eq.trans (skipBlank_cons hc rest)⟩

theorem Blanks.next (h : Blanks text (c :: rest)) (hc : isBlank c = false) :
    skipBlank text = c :: rest :=
  (skipBlank_eq_cons_iff hc).mpr h

theorem skipBlank_eq_nil_iff : skipBlank text = [] ↔ Blanks text [] :=
  ⟨blanks_of_eq, Blanks.skipBlank_eq⟩

theorem literal_eq_ok_iff : literal word text = .ok rest ↔ text = word ++ rest := by
  fun_induction literal word text with
  | case1 => simp
  | case2 => simp
  | case3 c word text ih => simpa using ih
  | case4 c word d text hne => simp [Ne.symm hne]

/-! ## Escapes by code unit -/

/-- Four hexadecimal digits, and the code unit they denote. -/
inductive CodeUnit : List Char → Nat → List Char → Prop
  | digits {a b c d : Char} {p q r s : Nat} {rest : List Char} :
      hexDigit a = some p → hexDigit b = some q → hexDigit c = some r → hexDigit d = some s →
        CodeUnit (a :: b :: c :: d :: rest) (((p * 16 + q) * 16 + r) * 16 + s) rest

/-- The character that code units denote: one that is no surrogate, or a surrogate pair. -/
inductive CodePoint : List Char → Char → List Char → Prop
  | single {text rest : List Char} {n : Nat} :
      CodeUnit text n rest → n < 0xd800 ∨ 0xdfff < n → CodePoint text (Char.ofNat n) rest
  | pair {text later rest : List Char} {high low : Nat} :
      CodeUnit text high ('\\' :: 'u' :: later) → 0xd800 ≤ high ∧ high ≤ 0xdbff →
      CodeUnit later low rest → 0xdc00 ≤ low ∧ low ≤ 0xdfff →
        CodePoint text (Char.ofNat (0x10000 + (high - 0xd800) * 0x400 + (low - 0xdc00))) rest

theorem codeUnit_eq_ok_iff : codeUnit text = .ok (n, rest) ↔ CodeUnit text n rest := by
  constructor
  · fun_cases codeUnit text with
    | case1 =>
        rename_i hd hc hb ha
        rintro ⟨⟩
        exact .digits ha hb hc hd
    | case2 => simp
    | case3 => simp
    | case4 => simp
  · rintro ⟨ha, hb, hc, hd⟩
    simp only [codeUnit, ha, hb, hc, hd]

/-- The second half of a pair is a backslash, a `u` and the code unit of a low surrogate. -/
theorem lowSurrogate_eq_ok_iff {high : Nat} : lowSurrogate high text = .ok (c, rest) ↔
    ∃ later low, text = '\\' :: 'u' :: later ∧ CodeUnit later low rest ∧
      (0xdc00 ≤ low ∧ low ≤ 0xdfff) ∧
      Char.ofNat (0x10000 + (high - 0xd800) * 0x400 + (low - 0xdc00)) = c := by
  fun_cases lowSurrogate high text with
  | case1 text =>
      simp only [bind_eq_ok_iff, Prod.exists, codeUnit_eq_ok_iff]
      constructor
      · rintro ⟨low, later, hlow, h⟩
        split at h
        · rename_i hrange
          obtain ⟨hchar, rfl⟩ := Prod.mk.inj (Except.ok.inj h)
          exact ⟨text, low, rfl, hlow, hrange, hchar⟩
        · cases h
      · rintro ⟨_, low, ⟨⟩, hlow, hrange, rfl⟩
        exact ⟨low, rest, hlow, if_pos hrange⟩
  | case2 => simp
  | case3 => simp
  | case4 =>
      rename_i hpair _ _
      simp only [reduceCtorEq, false_iff]
      rintro ⟨later, -, htext, -⟩
      exact hpair later htext

/-- **An escape by code unit is one unit that is no surrogate, or two that are a pair.** -/
theorem codePoint_eq_ok_iff : codePoint text = .ok (c, rest) ↔ CodePoint text c rest := by
  simp only [codePoint, bind_eq_ok_iff, Prod.exists, codeUnit_eq_ok_iff]
  constructor
  · rintro ⟨n, later, hn, h⟩
    split at h
    · rename_i hsingle
      obtain ⟨rfl, rfl⟩ := Prod.mk.inj (Except.ok.inj h)
      exact .single hn hsingle
    · rename_i hrange
      split at h
      · rename_i hhigh
        obtain ⟨_, low, rfl, hlow, hlowrange, rfl⟩ := lowSurrogate_eq_ok_iff.mp h
        exact .pair hn ⟨by omega, hhigh⟩ hlow hlowrange
      · cases h
  · rintro (⟨hn, hsingle⟩ | ⟨hn, hhigh, hlow, hlowrange⟩)
    · exact ⟨_, _, hn, if_pos hsingle⟩
    · refine ⟨_, _, hn, ?_⟩
      rw [if_neg (by omega), if_pos hhigh.2]
      exact lowSurrogate_eq_ok_iff.mpr ⟨_, _, rfl, hlow, hlowrange, rfl⟩

/-! ## Letters of a string -/

section Letters

variable {α : Type} {unit : List Char → α → List Char → Prop} {plain : Char → α} {a : α}
variable {read : List Char → Except Fault (α × List Char)} {list : List α} {fuel : Nat}

/-- One letter between the quotes: a character that stands for itself, a backslash and a letter for
another one, or a backslash and what `unit` says. -/
inductive Letter (unit : List Char → α → List Char → Prop) (plain : Char → α) :
    List Char → α → List Char → Prop
  | plain {c : Char} {rest : List Char} :
      c ≠ '"' → c ≠ '\\' → 0x20 ≤ c.toNat → Letter unit plain (c :: rest) (plain c) rest
  | escape {c d : Char} {rest : List Char} :
      simpleEscape c = some d → Letter unit plain ('\\' :: c :: rest) (plain d) rest
  | unit {text rest : List Char} {a : α} :
      unit text a rest → Letter unit plain ('\\' :: 'u' :: text) a rest

/-- The letters up to the closing quote. -/
inductive Letters (unit : List Char → α → List Char → Prop) (plain : Char → α) :
    List Char → List α → List Char → Prop
  | close {rest : List Char} : Letters unit plain ('"' :: rest) [] rest
  | more {text later rest : List Char} {a : α} {list : List α} :
      Letter unit plain text a later → Letters unit plain later list rest →
        Letters unit plain text (a :: list) rest

/-- The string is closed exactly where a quote stands. -/
theorem character_eq_none_iff :
    character read plain text = .ok (none, rest) ↔ text = '"' :: rest := by
  fun_cases character read plain text with
  | case1 => simp
  | case2 => simp
  | case3 text => simp [map_eq_ok_iff]
  | case4 => simp
  | case5 => simp
  | case6 => simp
  | case7 c text hquote => simp [show c ≠ '"' from hquote]
  | case8 c text hquote => simp [show c ≠ '"' from hquote]

/-- **A letter is read exactly where one is written.** -/
theorem character_eq_some_iff
    (hread : ∀ text a rest, read text = .ok (a, rest) ↔ unit text a rest) :
    character read plain text = .ok (some a, rest) ↔ Letter unit plain text a rest := by
  constructor
  · intro h
    revert h
    fun_cases character read plain text with
    | case1 => simp
    | case2 => simp
    | case3 text =>
        simp only [map_eq_ok_iff, Prod.exists, Prod.mk.injEq, Option.some.injEq, hread]
        rintro ⟨a, rest, h, rfl, rfl⟩
        exact .unit h
    | case4 => simp
    | case5 =>
        rename_i hescape
        rintro ⟨⟩
        exact .escape hescape
    | case6 => simp
    | case7 => simp
    | case8 c text hquote =>
        rename_i hnil hcons hshown
        rintro ⟨⟩
        refine .plain hquote (fun hslash => ?_) (Nat.not_lt.mp hshown)
        cases rest with
        | nil => exact hnil hslash rfl
        | cons c rest => exact hcons c rest hslash rfl
  · intro h
    cases h with
    | plain hquote hslash hshown => simp [character, hslash, Nat.not_lt.mpr hshown]
    | @escape c _ _ h =>
        have hu : c ≠ 'u' := fun heq => absurd (heq ▸ h) (by simp [simpleEscape])
        simp [character, h]
    | unit h => simp [character, (hread _ _ _).mpr h, Except.map]

/-- **A string is read up to its closing quote**, as long as the fuel lasts. -/
theorem characters_eq_ok_iff
    (hread : ∀ text a rest, read text = .ok (a, rest) ↔ unit text a rest) :
    characters read plain fuel text = .ok (list, rest) ↔
      Letters unit plain text list rest ∧ list.length < fuel := by
  induction fuel generalizing text list rest with
  | zero => simp [characters]
  | succ fuel ih =>
      simp only [characters, bind_eq_ok_iff, Prod.exists]
      constructor
      · rintro ⟨letter, later, hletter, h⟩
        cases letter with
        | none =>
            obtain ⟨rfl, rfl⟩ := Prod.mk.inj (Except.ok.inj h)
            rw [character_eq_none_iff.mp hletter]
            exact ⟨.close, Nat.succ_pos fuel⟩
        | some a =>
            simp only [bind_eq_ok_iff, Prod.exists, ih] at h
            obtain ⟨more, end', ⟨hmore, hfuel⟩, h⟩ := h
            obtain ⟨rfl, rfl⟩ := Prod.mk.inj (Except.ok.inj h)
            exact ⟨.more ((character_eq_some_iff hread).mp hletter) hmore, Nat.succ_lt_succ hfuel⟩
      · rintro ⟨_ | ⟨hletter, hmore⟩, hfuel⟩
        · exact ⟨none, rest, character_eq_none_iff.mpr rfl, rfl⟩
        · refine ⟨_, _, (character_eq_some_iff hread).mpr hletter, ?_⟩
          simp only [bind_eq_ok_iff, Prod.exists, ih]
          exact ⟨_, _, ⟨hmore, Nat.lt_of_succ_lt_succ hfuel⟩, rfl⟩

/-- Each letter and the quote take a character at least. -/
theorem Letters.length_lt (hunit : ∀ {text a rest}, unit text a rest → rest.length < text.length)
    (h : Letters unit plain text list rest) : list.length + rest.length < text.length := by
  induction h with
  | close => simp
  | more hletter _ ih =>
      cases hletter with
      | plain => simp only [List.length_cons] at ih ⊢; omega
      | escape => simp only [List.length_cons] at ih ⊢; omega
      | unit h => simp only [List.length_cons] at ih ⊢; have := hunit h; omega

end Letters

/-! ## Strings -/

/-- A string behind its opening quote, letter for letter. -/
def Spelled (text : List Char) (value : String) (rest : List Char) : Prop :=
  Letters CodePoint id text value.toList rest

/-- A string behind its opening quote whose code units need not pair up. -/
def Quoted (text rest : List Char) : Prop :=
  ∃ units : List Nat, Letters CodeUnit Char.toNat text units rest

theorem CodeUnit.length_lt (h : CodeUnit text n rest) : rest.length < text.length := by
  cases h
  simp only [List.length_cons]
  omega

theorem CodePoint.length_lt (h : CodePoint text c rest) : rest.length < text.length := by
  cases h with
  | single h => exact h.length_lt
  | pair hhigh _ hlow =>
      have := hhigh.length_lt
      have := hlow.length_lt
      simp only [List.length_cons] at *
      omega

/-- **A string is read exactly if it is spelled there.** -/
theorem string_eq_ok_iff {value : String} :
    string text = .ok (value, rest) ↔ Spelled text value rest := by
  simp only [string, map_eq_ok_iff, Prod.exists, Prod.mk.injEq,
    characters_eq_ok_iff fun _ _ _ => codePoint_eq_ok_iff]
  constructor
  · rintro ⟨list, _, ⟨h, -⟩, rfl, rfl⟩
    rwa [Spelled, String.toList_ofList]
  · intro h
    have hlength := h.length_lt CodePoint.length_lt
    exact ⟨value.toList, rest, ⟨h, by omega⟩, String.ofList_toList, rfl⟩

theorem skipString_eq_ok_iff : skipString text = .ok rest ↔ Quoted text rest := by
  simp only [skipString, map_eq_ok_iff, Prod.exists,
    characters_eq_ok_iff fun _ _ _ => codeUnit_eq_ok_iff]
  constructor
  · rintro ⟨list, _, ⟨h, -⟩, rfl⟩
    exact ⟨list, h⟩
  · rintro ⟨list, h⟩
    have hlength := h.length_lt CodeUnit.length_lt
    exact ⟨list, rest, ⟨h, by omega⟩, rfl⟩

theorem Spelled.length_lt {value : String} (h : Spelled text value rest) :
    rest.length < text.length := by
  have := Letters.length_lt CodePoint.length_lt h
  omega

theorem Quoted.length_lt (h : Quoted text rest) : rest.length < text.length := by
  obtain ⟨_, h⟩ := h
  have := h.length_lt CodeUnit.length_lt
  omega

/-- **A string that is spelled can be passed over**: a surrogate pair is two letters then. -/
theorem Spelled.quoted {value : String} (h : Spelled text value rest) : Quoted text rest := by
  rw [Spelled] at h
  generalize value.toList = list at h
  induction h with
  | close => exact ⟨[], .close⟩
  | more hletter _ ih =>
      obtain ⟨units, ih⟩ := ih
      cases hletter with
      | plain hquote hslash hshown => exact ⟨_, .more (.plain hquote hslash hshown) ih⟩
      | escape h => exact ⟨_, .more (.escape h) ih⟩
      | unit h =>
          cases h with
          | single h => exact ⟨_, .more (.unit h) ih⟩
          | pair hhigh _ hlow => exact ⟨_, .more (.unit hhigh) (.more (.unit hlow) ih)⟩

/-- Whether a character stands for itself in a string. -/
def isPlain (c : Char) : Bool := c ≠ '"' && c ≠ '\\' && 0x20 ≤ c.toNat

/-- Characters that stand for themselves spell a string. -/
theorem spelled_append {value : String} (h : value.toList.all isPlain = true) (rest : List Char) :
    Spelled (value.toList ++ '"' :: rest) value rest := by
  rw [Spelled]
  generalize value.toList = list at h
  induction list with
  | nil => exact .close
  | cons c list ih =>
      simp only [List.all_cons, isPlain, Bool.and_eq_true, decide_eq_true_eq] at h
      obtain ⟨⟨⟨hquote, hslash⟩, hshown⟩, hlater⟩ := h
      exact .more (.plain hquote hslash hshown) (ih hlater)

end SplitHello.Json
