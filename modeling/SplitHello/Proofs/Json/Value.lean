import SplitHello.Json.Value
import SplitHello.Proofs.Json.Number
import SplitHello.Proofs.Json.Text

/-!
# Proofs/Json/Value — how values of a document are written

A value that is passed over is a word, a number, a string, or a collection of values, with blanks
between any two of its parts.  The three functions that pass over values, the items of an array and
the members of an object call each other, so they are one function of the part that is passed over,
and a part is passed over exactly if it is written there.

* `colon_eq_ok_iff`, `expectOneOf_bind_eq_ok_iff` — the signs between the parts;
* `Part.skip_sound`, `Passed.skip_eq` — the two directions, both by induction on the fuel;
* `skipValue_eq_ok_iff` — a value is passed over exactly if one is written there.
-/

namespace SplitHello.Json

variable {c close : Char} {text inner later rest : List Char} {fuel : Nat}

/-! ## Signs between the parts -/

/-- A colon is read exactly if it is the next character. -/
theorem colon_eq_ok_iff : colon text = .ok rest ↔ Blanks text (':' :: rest) := by
  rw [← skipBlank_eq_cons_iff (by decide), colon]
  split
  · rename_i h
    simp [h]
  · rename_i c later h
    by_cases hc : c = ':' <;> simp [h, hc]

/-- A collection is closed exactly if its closing sign is the next character. -/
theorem expectOneOf_eq_closed_iff (hclose : isBlank close = false) :
    expectOneOf text close = .ok (true, rest) ↔ Blanks text (close :: rest) := by
  rw [← skipBlank_eq_cons_iff hclose, expectOneOf]
  split
  · rename_i h
    simp [h]
  · rename_i c later h
    by_cases hc : c = close
    · simp [h, hc]
    · by_cases hcomma : c = ','
      · simp [h, hcomma, hcomma ▸ hc]
      · simp [h, hc, hcomma]

/-- A collection goes on exactly if a comma is the next character. -/
theorem expectOneOf_eq_open_iff (hclose : ',' ≠ close) :
    expectOneOf text close = .ok (false, rest) ↔ Blanks text (',' :: rest) := by
  rw [← skipBlank_eq_cons_iff (by decide), expectOneOf]
  split
  · rename_i h
    simp [h]
  · rename_i c later h
    by_cases hc : c = close
    · simp [h, hc, hclose.symm]
    · by_cases hcomma : c = ','
      · simp [h, hcomma, hclose]
      · simp [h, hc, hcomma]

/-- What closes a collection or leads on to its next item decides how the reading goes on. -/
theorem expectOneOf_bind_eq_ok_iff (next : List Char → Except Fault (List Char))
    (hclose : isBlank close = false) (hcomma : ',' ≠ close) :
    (expectOneOf text close >>= fun sign => if sign.1 then .ok sign.2 else next sign.2) =
        .ok rest ↔
      Blanks text (close :: rest) ∨
        ∃ later, Blanks text (',' :: later) ∧ next later = .ok rest := by
  simp only [bind_eq_ok_iff, Prod.exists, Bool.exists_bool, expectOneOf_eq_open_iff hcomma,
    expectOneOf_eq_closed_iff hclose, if_true, Bool.false_eq_true, if_false, Except.ok.injEq]
  rw [or_comm]
  simp only [exists_eq_right]

/-! ## Values -/

/-- A value that is neither a string nor a collection, behind its first character. -/
inductive Scalar : Char → List Char → List Char → Prop
  | nullWord {rest : List Char} : Scalar 'n' ('u' :: 'l' :: 'l' :: rest) rest
  | trueWord {rest : List Char} : Scalar 't' ('r' :: 'u' :: 'e' :: rest) rest
  | falseWord {rest : List Char} : Scalar 'f' ('a' :: 'l' :: 's' :: 'e' :: rest) rest
  | negative {text rest : List Char} : Number text rest → Scalar '-' text rest
  | number {c : Char} {text rest : List Char} :
      c.isDigit = true → Number (c :: text) rest → Scalar c text rest

theorem skipScalar_eq_ok_iff : skipScalar c text = .ok rest ↔ Scalar c text rest := by
  constructor
  · intro h
    rw [skipScalar] at h
    split at h
    · subst c
      rw [literal_eq_ok_iff.mp h]
      exact .nullWord
    split at h
    · subst c
      rw [literal_eq_ok_iff.mp h]
      exact .trueWord
    split at h
    · subst c
      rw [literal_eq_ok_iff.mp h]
      exact .falseWord
    split at h
    · subst c
      exact .negative (skipNumeral_eq_ok_iff.mp h)
    split at h
    · rename_i hdigit
      exact .number hdigit (skipNumeral_eq_ok_iff.mp h)
    · cases h
  · intro h
    cases h with
    | nullWord | trueWord | falseWord => exact literal_eq_ok_iff.mpr rfl
    | negative h => exact skipNumeral_eq_ok_iff.mpr h
    | number hdigit h =>
        have hne : ∀ d : Char, d.isDigit = false → c ≠ d := by
          rintro d hd rfl
          simp [hd] at hdigit
        rw [skipScalar, if_neg (hne _ (by decide)), if_neg (hne _ (by decide)),
          if_neg (hne _ (by decide)), if_neg (hne _ (by decide)), if_pos hdigit]
        exact skipNumeral_eq_ok_iff.mpr h

/-- What can be passed over. -/
inductive Part where
  /-- A value. -/
  | value
  /-- The items of an array, at least one, and its bracket. -/
  | items
  /-- The members of an object, at least one, and its brace. -/
  | members

/-- What follows a part. -/
def Part.skip (fuel : Nat) : Part → List Char → Except Fault (List Char)
  | .value => skipValueWithin fuel
  | .items => skipItems fuel
  | .members => skipMembers fuel

/-- A key that nobody looks at, and the colon behind it. -/
inductive Key : List Char → List Char → Prop
  | quotes {text key colon rest : List Char} :
      Blanks text ('"' :: key) → Quoted key colon → Blanks colon (':' :: rest) → Key text rest

/-- How a part that is passed over is written, with the blanks ahead of it. -/
inductive Passed : Part → List Char → List Char → Prop
  | scalar {c : Char} {text inner rest : List Char} :
      Blanks text (c :: inner) → Scalar c inner rest → Passed .value text rest
  | string {text inner rest : List Char} :
      Blanks text ('"' :: inner) → Quoted inner rest → Passed .value text rest
  | emptyArray {text inner rest : List Char} :
      Blanks text ('[' :: inner) → Blanks inner (']' :: rest) → Passed .value text rest
  | array {text inner rest : List Char} :
      Blanks text ('[' :: inner) → Passed .items inner rest → Passed .value text rest
  | emptyObject {text inner rest : List Char} :
      Blanks text ('{' :: inner) → Blanks inner ('}' :: rest) → Passed .value text rest
  | object {text inner rest : List Char} :
      Blanks text ('{' :: inner) → Passed .members inner rest → Passed .value text rest
  | lastItem {text later rest : List Char} :
      Passed .value text later → Blanks later (']' :: rest) → Passed .items text rest
  | item {text later next rest : List Char} :
      Passed .value text later → Blanks later (',' :: next) → Passed .items next rest →
        Passed .items text rest
  | lastMember {text value later rest : List Char} :
      Key text value → Passed .value value later → Blanks later ('}' :: rest) →
        Passed .members text rest
  | member {text value later next rest : List Char} :
      Key text value → Passed .value value later → Blanks later (',' :: next) →
      Passed .members next rest → Passed .members text rest

/-- A scalar starts with a letter of a word, a minus sign or a digit. -/
theorem Scalar.ne (h : Scalar c text rest) (d : Char)
    (hd : (['n', 't', 'f', '-'].contains d || d.isDigit) = false) : c ≠ d := by
  rintro rfl
  cases h with
  | number hdigit => simp [hdigit] at hd
  | _ => simp at hd

theorem Scalar.isBlank_eq (h : Scalar c text rest) : isBlank c = false := by
  simp [isBlank, h.ne ' ' (by decide), h.ne '\n' (by decide), h.ne '\t' (by decide),
    h.ne '\r' (by decide)]

theorem Scalar.length_le (h : Scalar c text rest) : rest.length ≤ text.length := by
  cases h with
  | negative h => exact Nat.le_of_lt h.length_lt
  | number _ h => exact Nat.le_of_lt_succ h.length_lt
  | _ => simp only [List.length_cons]; omega

theorem Key.length_lt (h : Key text rest) : rest.length < text.length := by
  obtain ⟨hkey, hquoted, hcolon⟩ := h
  exact Nat.lt_trans hcolon.length_lt (Nat.lt_trans hquoted.length_lt hkey.length_lt)

/-- A part takes a character at least. -/
theorem Passed.length_lt {part : Part} (h : Passed part text rest) : rest.length < text.length := by
  induction h with
  | scalar hc h => exact Nat.lt_of_le_of_lt h.length_le hc.length_lt
  | string hc h => exact Nat.lt_trans h.length_lt hc.length_lt
  | emptyArray hc h => exact Nat.lt_trans h.length_lt hc.length_lt
  | array hc _ ih => exact Nat.lt_trans ih hc.length_lt
  | emptyObject hc h => exact Nat.lt_trans h.length_lt hc.length_lt
  | object hc _ ih => exact Nat.lt_trans ih hc.length_lt
  | lastItem _ hc ih => exact Nat.lt_trans hc.length_lt ih
  | item _ hc _ ih ih' => exact Nat.lt_trans ih' (Nat.lt_trans hc.length_lt ih)
  | lastMember hkey _ hc ih => exact Nat.lt_trans hc.length_lt (Nat.lt_trans ih hkey.length_lt)
  | member hkey _ hc _ ih ih' =>
      exact Nat.lt_trans ih' (Nat.lt_trans hc.length_lt (Nat.lt_trans ih hkey.length_lt))

/-! ## Passing over -/

/-- Blanks ahead of a part do not matter. -/
theorem Part.skip_skipBlank (part : Part) (fuel : Nat) (text : List Char) :
    part.skip fuel (skipBlank text) = part.skip fuel text := by
  have hvalue : ∀ fuel, skipValueWithin fuel (skipBlank text) = skipValueWithin fuel text := by
    intro fuel
    cases fuel with
    | zero => rfl
    | succ fuel => simp only [skipValueWithin, skipBlank_skipBlank]
  cases part with
  | value => exact hvalue fuel
  | items =>
      cases fuel with
      | zero => rfl
      | succ fuel => simp only [Part.skip, skipItems, hvalue]
  | members =>
      cases fuel with
      | zero => rfl
      | succ fuel => simp only [Part.skip, skipMembers, skipBlank_skipBlank]

/-- One item, and what follows it. -/
theorem skipItems_succ_eq_ok_iff : skipItems (fuel + 1) text = .ok rest ↔
    ∃ later, skipValueWithin fuel text = .ok later ∧ (Blanks later (']' :: rest) ∨
      ∃ next, Blanks later (',' :: next) ∧ skipItems fuel next = .ok rest) := by
  rw [skipItems, bind_eq_ok_iff]
  refine exists_congr fun later => and_congr_right fun _ => ?_
  exact expectOneOf_bind_eq_ok_iff (skipItems fuel) (by decide) (by decide)

theorem key_iff : Key text rest ↔ ∃ key, skipBlank text = '"' :: key ∧
    ∃ later, skipString key = .ok later ∧ colon later = .ok rest := by
  simp only [skipString_eq_ok_iff, colon_eq_ok_iff]
  constructor
  · rintro ⟨hkey, hquoted, hcolon⟩
    exact ⟨_, hkey.next (by decide), _, hquoted, hcolon⟩
  · rintro ⟨_, hkey, _, hquoted, hcolon⟩
    exact .quotes (blanks_of_eq hkey) hquoted hcolon

/-- One member, and what follows it. -/
theorem skipMembers_succ_eq_ok_iff : skipMembers (fuel + 1) text = .ok rest ↔
    ∃ value, Key text value ∧ ∃ later, skipValueWithin fuel value = .ok later ∧
      (Blanks later ('}' :: rest) ∨
        ∃ next, Blanks later (',' :: next) ∧ skipMembers fuel next = .ok rest) := by
  simp only [key_iff, skipMembers]
  split
  · rename_i h
    simp [h]
  · rename_i key h
    simp only [h, List.cons.injEq, true_and, exists_eq_left']
    rw [bind_eq_ok_iff]
    constructor
    · rintro ⟨colon, hquoted, h⟩
      obtain ⟨value, hcolon, h⟩ := bind_eq_ok_iff.mp h
      obtain ⟨later, hvalue, h⟩ := bind_eq_ok_iff.mp h
      exact ⟨value, ⟨colon, hquoted, hcolon⟩, later, hvalue,
        (expectOneOf_bind_eq_ok_iff (skipMembers fuel) (by decide) (by decide)).mp h⟩
    · rintro ⟨value, ⟨colon, hquoted, hcolon⟩, later, hvalue, h⟩
      refine ⟨colon, hquoted, bind_eq_ok_iff.mpr ⟨value, hcolon, bind_eq_ok_iff.mpr
        ⟨later, hvalue, ?_⟩⟩⟩
      exact (expectOneOf_bind_eq_ok_iff (skipMembers fuel) (by decide) (by decide)).mpr h
  · rename_i hother
    have hne : ∀ key, skipBlank text ≠ '"' :: key := hother
    simp [hne]

/-- Where all smaller parts that are passed over are written, so is a value. -/
theorem skipValueWithin_sound
    (ih : ∀ {text rest : List Char} (part : Part), part.skip fuel text = .ok rest →
      Passed part text rest)
    (h : skipValueWithin (fuel + 1) text = .ok rest) : Passed .value text rest := by
  rw [skipValueWithin] at h
  split at h
  · cases h
  · rename_i hopen
    exact .string (blanks_of_eq hopen) (skipString_eq_ok_iff.mp h)
  · rename_i inner hopen
    split at h
    · rename_i hclose
      obtain rfl := Except.ok.inj h
      exact .emptyArray (blanks_of_eq hopen) (blanks_of_eq hclose)
    · split at h
      · cases h
      · exact .array (blanks_of_eq hopen)
          (ih .items ((Part.skip_skipBlank .items fuel inner).symm.trans h))
  · rename_i inner hopen
    split at h
    · rename_i hclose
      obtain rfl := Except.ok.inj h
      exact .emptyObject (blanks_of_eq hopen) (blanks_of_eq hclose)
    · exact .object (blanks_of_eq hopen)
        (ih .members ((Part.skip_skipBlank .members fuel inner).symm.trans h))
  · rename_i hopen
    exact .scalar (blanks_of_eq hopen) (skipScalar_eq_ok_iff.mp h)

/-- **Only parts that are written are passed over.** -/
theorem Part.skip_sound (part : Part) (h : part.skip fuel text = .ok rest) :
    Passed part text rest := by
  induction fuel generalizing part text rest with
  | zero => cases part <;> cases h
  | succ fuel ih =>
      cases part with
      | value => exact skipValueWithin_sound ih h
      | items =>
          obtain ⟨later, hvalue, hclose | ⟨next, hcomma, hitems⟩⟩ := skipItems_succ_eq_ok_iff.mp h
          · exact .lastItem (ih .value hvalue) hclose
          · exact .item (ih .value hvalue) hcomma (ih .items hitems)
      | members =>
          obtain ⟨value, hkey, later, hvalue, hclose | ⟨next, hcomma, hmembers⟩⟩ :=
            skipMembers_succ_eq_ok_iff.mp h
          · exact .lastMember hkey (ih .value hvalue) hclose
          · exact .member hkey (ih .value hvalue) hcomma (ih .members hmembers)

/-- The first character of items or members is none that closes a collection. -/
theorem Passed.head {part : Part} (h : Passed part text rest) :
    ∃ c later, skipBlank text = c :: later ∧ c ≠ ']' ∧ c ≠ '}' := by
  induction h with
  | scalar hc h =>
      exact ⟨_, _, hc.next h.isBlank_eq, h.ne _ (by decide),
        h.ne _ (by decide)⟩
  | lastMember hkey | member hkey =>
      obtain ⟨_, hkey, -⟩ := key_iff.mp hkey
      exact ⟨_, _, hkey, by decide, by decide⟩
  | string hc | emptyArray hc | array hc | emptyObject hc | object hc =>
      exact ⟨_, _, hc.next (by decide), by decide, by decide⟩
  | lastItem _ _ ih | item _ _ _ ih => exact ih

/-- Where all smaller parts that are written are passed over, so is a value. -/
theorem skipValueWithin_complete
    (ih : ∀ {text rest : List Char} {part : Part}, Passed part text rest →
      text.length ≤ fuel + rest.length → part.skip fuel text = .ok rest)
    (h : Passed .value text rest) (hfuel : text.length ≤ fuel + 1 + rest.length) :
    skipValueWithin (fuel + 1) text = .ok rest := by
  cases h with
  | @scalar c _ _ _ hopen h =>
      have hquote : c ≠ '"' := h.ne '"' (by decide)
      have hbracket : c ≠ '[' := h.ne '[' (by decide)
      have hbrace : c ≠ '{' := h.ne '{' (by decide)
      simp only [skipValueWithin, hopen.next h.isBlank_eq]
      exact skipScalar_eq_ok_iff.mpr h
  | string hopen h =>
      simp only [skipValueWithin, hopen.next (by decide)]
      exact skipString_eq_ok_iff.mpr h
  | emptyArray hopen hclose | emptyObject hopen hclose =>
      simp only [skipValueWithin, hopen.next (by decide), hclose.next (by decide)]
  | array hopen h =>
      obtain ⟨c, later, hinner, hne, -⟩ := h.head
      have hlength := hopen.length_lt
      have hitems := ih h (by omega)
      rw [← Part.skip_skipBlank, hinner] at hitems
      simpa [Part.skip, skipValueWithin, hopen.next (by decide), hinner, hne] using hitems
  | object hopen h =>
      obtain ⟨c, later, hinner, -, hne⟩ := h.head
      have hlength := hopen.length_lt
      have hmembers := ih h (by omega)
      rw [← Part.skip_skipBlank, hinner] at hmembers
      simpa [Part.skip, skipValueWithin, hopen.next (by decide), hinner, hne] using hmembers

/-- **Parts that are written are passed over** with enough fuel. -/
theorem Passed.skip_eq {part : Part} (h : Passed part text rest)
    (hfuel : text.length ≤ fuel + rest.length) : part.skip fuel text = .ok rest := by
  induction fuel generalizing part text rest with
  | zero =>
      have := h.length_lt
      omega
  | succ fuel ih =>
      cases part with
      | value => exact skipValueWithin_complete ih h hfuel
      | items =>
          refine skipItems_succ_eq_ok_iff.mpr ?_
          cases h with
          | lastItem hvalue hclose =>
              have := hclose.length_lt
              exact ⟨_, ih hvalue (by omega), .inl hclose⟩
          | item hvalue hcomma hitems =>
              have := hcomma.length_lt
              have := hvalue.length_lt
              have := hitems.length_lt
              exact ⟨_, ih hvalue (by omega), .inr ⟨_, hcomma, ih hitems (by omega)⟩⟩
      | members =>
          refine skipMembers_succ_eq_ok_iff.mpr ?_
          cases h with
          | lastMember hkey hvalue hclose =>
              have := hkey.length_lt
              have := hclose.length_lt
              exact ⟨_, hkey, _, ih hvalue (by omega), .inl hclose⟩
          | member hkey hvalue hcomma hmembers =>
              have := hkey.length_lt
              have := hcomma.length_lt
              have := hvalue.length_lt
              have := hmembers.length_lt
              exact ⟨_, hkey, _, ih hvalue (by omega), .inr ⟨_, hcomma, ih hmembers (by omega)⟩⟩

/-- **A value is passed over exactly if one is written there.** -/
theorem skipValue_eq_ok_iff : skipValue text = .ok rest ↔ Passed .value text rest :=
  ⟨Part.skip_sound .value, fun h => h.skip_eq (by omega)⟩

end SplitHello.Json
