import SplitHello.Proofs.Json.Value

/-!
# Proofs/Json/Collection — arrays and objects whose items are looked at

Where the items of a collection matter, it is told as the list of them: the items ahead of a place,
each with the comma behind it, then the last one and the closing sign.  An item of an array is a
string here, and one of an object a key with its value, which is a string or nobody looks at it.

* `Valued.passed` — a value can be passed over, whatever it is;
* `Ahead.length_le` — each item ahead of a place takes a character at least.
-/

namespace SplitHello.Json

variable {α : Type} {item : List Char → α → List Char → Prop} {list : List α} {a : α}
variable {closing : Char} {value key : String} {text later rest here : List Char}

/-! ## Items -/

/-- A string, with the blanks ahead of it. -/
inductive TextValue : List Char → String → List Char → Prop
  | quotes {text inner rest : List Char} {value : String} :
      Blanks text ('"' :: inner) → Spelled inner value rest → TextValue text value rest

/-- What a member of an object holds: a string, or a value that nobody looks at. -/
inductive Content where
  | text (value : String)
  | any

/-- A value and what it holds. -/
inductive Valued : List Char → Content → List Char → Prop
  | text {text rest : List Char} {value : String} :
      TextValue text value rest → Valued text (.text value) rest
  | any {text rest : List Char} : Passed .value text rest → Valued text .any rest

/-- A member of an object: a key, a colon and a value. -/
inductive Member : List Char → String × Content → List Char → Prop
  | pair {text colon inner rest : List Char} {key : String} {content : Content} :
      TextValue text key colon → Blanks colon (':' :: inner) → Valued inner content rest →
        Member text (key, content) rest

/-- The next character of a string is its quote. -/
theorem TextValue.exists_quote (h : TextValue text value rest) :
    ∃ inner, skipBlank text = '"' :: inner ∧ Spelled inner value rest := by
  obtain ⟨hquote, h⟩ := h
  exact ⟨_, hquote.next (by decide), h⟩

theorem textValue_iff : TextValue text value rest ↔
    ∃ inner, skipBlank text = '"' :: inner ∧ Spelled inner value rest := by
  refine ⟨TextValue.exists_quote, ?_⟩
  rintro ⟨inner, hinner, h⟩
  exact .quotes (blanks_of_eq hinner) h

/-- Blanks ahead of a string do not matter. -/
@[simp] theorem textValue_skipBlank :
    TextValue (skipBlank text) value rest ↔ TextValue text value rest := by
  rw [textValue_iff, textValue_iff, skipBlank_skipBlank]

theorem TextValue.length_lt (h : TextValue text value rest) :
    rest.length < (skipBlank text).length := by
  obtain ⟨inner, hinner, h⟩ := h.exists_quote
  rw [hinner]
  exact Nat.lt_succ_of_lt h.length_lt

theorem skipBlank_length_le (text : List Char) : (skipBlank text).length ≤ text.length :=
  (blanks_skipBlank text).length_le

/-- **A value can be passed over, whatever it holds.** -/
theorem Valued.passed {content : Content} (h : Valued text content rest) :
    Passed .value text rest := by
  obtain ⟨hquote, h⟩ | h := h
  · exact .string hquote h.quoted
  · exact h

theorem Member.exists_quote {member : String × Content} (h : Member text member rest) :
    ∃ inner, skipBlank text = '"' :: inner := by
  obtain ⟨hkey, -, -⟩ := h
  exact hkey.exists_quote.imp fun _ => And.left

theorem Member.length_lt {member : String × Content} (h : Member text member rest) :
    rest.length < (skipBlank text).length := by
  obtain ⟨hkey, hcolon, hvalue⟩ := h
  have := hkey.length_lt
  have := hcolon.length_lt
  have := hvalue.passed.length_lt
  omega

/-! ## Items in a row -/

/-- The items ahead of a place, each with the comma behind it. -/
inductive Ahead (item : List Char → α → List Char → Prop) :
    List Char → List α → List Char → Prop
  | none {text : List Char} : Ahead item text [] text
  | more {text later next rest : List Char} {a : α} {list : List α} :
      item text a later → Blanks later (',' :: next) → Ahead item next list rest →
        Ahead item text (a :: list) rest

/-- The items of a collection, whose opening sign is behind, and its closing sign. -/
inductive Row (item : List Char → α → List Char → Prop) (closing : Char) :
    List Char → List α → List Char → Prop
  | empty {text rest : List Char} : Blanks text (closing :: rest) → Row item closing text [] rest
  | filled {text here later rest : List Char} {front : List α} {last : α} :
      Ahead item text front here → item here last later → Blanks later (closing :: rest) →
        Row item closing text (front ++ [last]) rest

/-- One more item ahead of a row. -/
theorem Row.cons (ha : item text a later) (hcomma : Blanks later (',' :: here))
    (h : Row item closing here list rest) (hne : list ≠ []) :
    Row item closing text (a :: list) rest := by
  cases h with
  | empty => exact absurd rfl hne
  | filled hahead hlast hclose => exact .filled (.more ha hcomma hahead) hlast hclose

/-- Where a row starts, an item starts. -/
theorem Ahead.starts {p : List Char → Prop} (h : Ahead item text list here)
    (ha : item here a later) (hitem : ∀ text a rest, item text a rest → p text) : p text := by
  cases h with
  | none => exact hitem _ _ _ ha
  | more hfirst => exact hitem _ _ _ hfirst

/-- **Each item ahead of a place takes a character at least.** -/
theorem Ahead.length_le (h : Ahead item text list here)
    (hitem : ∀ text a rest, item text a rest → rest.length < (skipBlank text).length) :
    list.length + (skipBlank here).length ≤ (skipBlank text).length := by
  induction h with
  | none => simp
  | @more text later next here a list ha hcomma _ ih =>
      have := hitem _ _ _ ha
      have := hcomma.length_lt
      have := skipBlank_length_le next
      simp only [List.length_cons]
      omega

end SplitHello.Json
