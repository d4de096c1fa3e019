import SplitHello.Proofs.Json.Value

/-!
# Proofs/Json/Faults — what readers of a document fail by

A reader of blanks, words, strings, numbers or values has two ways to fail: the text there is not
JSON, or it ends.  Only a value of a wrong type has words of its own, and those name what was found.

* `ByForm.bind` — readers in a row fail by the form of the text if each of them does;
* `byForm_string`, `byForm_skipValue` — strings and values that are passed over;
* `wrongType_cases` — values of a wrong type.
-/

namespace SplitHello

/-- A step and what follows it fail exactly if the step does, or what follows its answer. -/
theorem bind_eq_error_iff {ε α β : Type} {first : Except ε α} {next : α → Except ε β} {e : ε} :
    (first >>= next) = .error e ↔ first = .error e ∨ ∃ a, first = .ok a ∧ next a = .error e := by
  cases first with
  | error fault =>
      refine ⟨fun h => .inl (congrArg Except.error (Except.error.inj h)), ?_⟩
      rintro (h | ⟨_, ha, _⟩)
      · exact congrArg Except.error (Except.error.inj h)
      · cases ha
  | ok a =>
      refine ⟨fun h => .inr ⟨a, rfl, h⟩, ?_⟩
      rintro (ha | ⟨_, ha, h⟩)
      · cases ha
      · obtain rfl := Except.ok.inj ha
        exact h

namespace Json

variable {α β : Type} {read : Except Fault α} {fault : Fault} {c : Char} {text : List Char}

/-- A reader fails only by the form of the text: it is not JSON, or it ends. -/
def ByForm (read : Except Fault α) : Prop :=
  ∀ fault, read = .error fault → fault = .malformed ∨ fault = .endsEarly

@[simp] theorem byForm_ok (a : α) : ByForm (.ok a) := fun _ h => nomatch h

@[simp] theorem byForm_error_iff :
    ByForm (.error fault : Except Fault α) ↔ fault = .malformed ∨ fault = .endsEarly :=
  ⟨fun h => h fault rfl, fun h _ heq => Except.error.inj heq ▸ h⟩

/-- What is made of what was read does not matter. -/
@[simp] theorem byForm_map_iff {f : α → β} : ByForm (read.map f) ↔ ByForm read := by
  cases read <;> simp [Except.map]

/-- **Readers in a row fail by the form of the text if each of them does.** -/
theorem ByForm.bind {next : α → Except Fault β} (h : ByForm read)
    (hnext : ∀ a, ByForm (next a)) : ByForm (read >>= next) := by
  cases read with
  | ok a => exact hnext a
  | error fault => exact byForm_error_iff.mpr (byForm_error_iff.mp h)

/-- A choice of readers fails by the form of the text if both of them do. -/
theorem ByForm.ite {p : Prop} [Decidable p] {other : Except Fault α} (h : ByForm read)
    (hother : ByForm other) : ByForm (if p then read else other) := by
  split
  · exact h
  · exact hother

theorem byForm_malformed : ByForm (.error .malformed : Except Fault α) :=
  byForm_error_iff.mpr (.inl rfl)

theorem byForm_endsEarly : ByForm (.error .endsEarly : Except Fault α) :=
  byForm_error_iff.mpr (.inr rfl)

/-- A row of readers fails by an interval's text only behind the readers that fail by form. -/
theorem ByForm.bind_eq_invalid_iff {next : α → Except Fault β} {e : PolicyError}
    (h : ByForm read) : (read >>= next) = .error (.invalidInterval e) ↔
      ∃ a, read = .ok a ∧ next a = .error (.invalidInterval e) := by
  have hne : read ≠ .error (.invalidInterval e) := by
    rintro rfl
    simp at h
  rw [bind_eq_error_iff, or_iff_right hne]

/-! ## Words and strings -/

theorem byForm_literal (word text : List Char) : ByForm (literal word text) := by
  fun_induction literal word text <;> simp [*]

theorem byForm_codeUnit (text : List Char) : ByForm (codeUnit text) := by
  fun_cases codeUnit text <;> simp

theorem byForm_lowSurrogate (high : Nat) (text : List Char) : ByForm (lowSurrogate high text) := by
  fun_cases lowSurrogate high text with
  | case1 text =>
      exact (byForm_codeUnit text).bind fun _ => .ite (byForm_ok _) byForm_malformed
  | _ => simp

theorem byForm_codePoint (text : List Char) : ByForm (codePoint text) := by
  refine (byForm_codeUnit text).bind fun _ => .ite (byForm_ok _) ?_
  exact .ite (byForm_lowSurrogate _ _) byForm_malformed

section

variable {unit : List Char → Except Fault (α × List Char)} {plain : Char → α}

theorem byForm_character (hunit : ∀ text, ByForm (unit text)) (text : List Char) :
    ByForm (character unit plain text) := by
  fun_cases character unit plain text <;> simp [hunit]

theorem byForm_characters (hunit : ∀ text, ByForm (unit text)) (fuel : Nat) (text : List Char) :
    ByForm (characters unit plain fuel text) := by
  induction fuel generalizing text with
  | zero => exact byForm_endsEarly
  | succ fuel ih =>
      refine (byForm_character hunit text).bind fun (next, later) => ?_
      cases next with
      | none => exact byForm_ok _
      | some a => exact (ih later).bind fun _ => byForm_ok _

end

theorem byForm_string (text : List Char) : ByForm (string text) :=
  byForm_map_iff.mpr (byForm_characters byForm_codePoint _ text)

theorem byForm_skipString (text : List Char) : ByForm (skipString text) :=
  byForm_map_iff.mpr (byForm_characters byForm_codeUnit _ text)

/-! ## Numbers -/

theorem byForm_digits (text : List Char) : ByForm (digits text) := by
  fun_cases digits text <;> simp

theorem byForm_wholePart (text : List Char) : ByForm (wholePart text) := by
  exact (byForm_digits text).bind fun _ => .ite byForm_malformed (byForm_ok _)

theorem byForm_fractionPart (text : List Char) : ByForm (fractionPart text) := by
  fun_cases fractionPart text <;> simp [byForm_digits]

theorem byForm_signedExponent (text : List Char) : ByForm (signedExponent text) := by
  fun_cases signedExponent text <;> simp [byForm_digits]

theorem byForm_exponentPart (text : List Char) : ByForm (exponentPart text) := by
  fun_cases exponentPart text <;> simp [byForm_signedExponent]

theorem byForm_numeral (negative : Bool) (text : List Char) : ByForm (numeral negative text) :=
  (byForm_wholePart text).bind fun _ => (byForm_fractionPart _).bind fun _ =>
    (byForm_exponentPart _).bind fun _ => byForm_ok _

theorem byForm_skipNumeral (text : List Char) : ByForm (skipNumeral text) := by
  fun_cases skipNumeral text <;> simp

theorem byForm_scale (significand : Nat) (exponent : Int) :
    ByForm (scale significand exponent) := by
  fun_cases scale significand exponent <;> simp

theorem byForm_float (numeral : Numeral) : ByForm numeral.float :=
  byForm_map_iff.mpr (byForm_scale _ _)

theorem byForm_found (numeral : Numeral) : ByForm numeral.found := by
  have hfloat : ByForm (numeral.float.map fun x => Found.float (Decimal.floatText x)) :=
    byForm_map_iff.mpr (byForm_float numeral)
  exact hfloat.ite (.ite (.ite (byForm_ok _) hfloat) (.ite (byForm_ok _) hfloat))

/-! ## Values -/

theorem byForm_skipScalar (c : Char) (text : List Char) : ByForm (skipScalar c text) := by
  fun_cases skipScalar c text <;> simp [byForm_literal, byForm_skipNumeral]

theorem byForm_expectOneOf (text : List Char) (close : Char) : ByForm (expectOneOf text close) := by
  fun_cases expectOneOf text close <;> simp

theorem byForm_colon (text : List Char) : ByForm (colon text) := by
  fun_cases colon text <;> simp

/-- **Passing over a part fails by the form of the text alone.** -/
theorem Part.byForm_skip (part : Part) (fuel : Nat) (text : List Char) :
    ByForm (part.skip fuel text) := by
  induction fuel generalizing part text with
  | zero => cases part <;> exact byForm_endsEarly
  | succ fuel ih =>
      cases part with
      | value =>
          rw [Part.skip, skipValueWithin]
          split
          · exact byForm_endsEarly
          · exact byForm_skipString _
          · split
            · exact byForm_ok _
            · split
              · exact byForm_endsEarly
              · exact ih .items _
          · split
            · exact byForm_ok _
            · exact ih .members _
          · exact byForm_skipScalar _ _
      | items =>
          refine (ih .value text).bind fun later =>
            (byForm_expectOneOf later ']').bind fun sign => ?_
          obtain ⟨_ | _, next⟩ := sign
          · exact ih .items next
          · exact byForm_ok next
      | members =>
          rw [Part.skip, skipMembers]
          split
          · exact byForm_endsEarly
          · refine (byForm_skipString _).bind fun later => (byForm_colon later).bind fun value =>
              (ih .value value).bind fun later => (byForm_expectOneOf later '}').bind fun sign => ?_
            obtain ⟨_ | _, next⟩ := sign
            · exact ih .members next
            · exact byForm_ok next
          · exact byForm_malformed

theorem byForm_skipValue (text : List Char) : ByForm (skipValue text) :=
  Part.byForm_skip .value _ text

/-- A value of a wrong type is named, unless its text is not JSON or ends. -/
theorem wrongType_cases (expected : String) (c : Char) (text : List Char) :
    (∃ found, wrongType expected c text = .wrongType found expected) ∨
      wrongType expected c text = .malformed ∨ wrongType expected c text = .endsEarly := by
  unfold wrongType
  dsimp only
  split
  · exact .inl ⟨_, rfl⟩
  · rename_i fault h
    refine .inr ((?_ : ByForm _) fault h)
    refine .ite (byForm_map_iff.mpr (byForm_literal _ _)) ?_
    refine .ite (byForm_map_iff.mpr (byForm_literal _ _)) ?_
    refine .ite (byForm_map_iff.mpr (byForm_literal _ _)) ?_
    refine .ite ((byForm_numeral _ _).bind fun found => byForm_found found.1) ?_
    refine .ite ((byForm_numeral _ _).bind fun found => byForm_found found.1) ?_
    refine .ite (byForm_map_iff.mpr (byForm_string _)) ?_
    exact .ite (byForm_ok _) (.ite (byForm_ok _) byForm_malformed)

end Json

end SplitHello
