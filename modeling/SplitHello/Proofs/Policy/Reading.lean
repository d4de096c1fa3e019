import SplitHello.Proofs.Policy.Members

/-!
# Proofs/Policy/Reading — the readers of an interval, an object and an array

Each reader succeeds exactly where what it reads is written, and so far as the texts found there are
those of intervals.  Up to a place with problem-free members or items ahead of it a reader is the
same reader started at that place, so what happens there is what happens at all.

* `Interval.takeJson_of_textValue` — a string is read as its text is;
* `takeMembers_of_ahead`, `takeItems_of_ahead` — the members or items ahead of a place;
* `takeObject_eq_ok_iff`, `takeArray_eq_ok_iff` — the objects and the arrays that are read.
-/

namespace SplitHello

open Json (Blanks TextValue Content Valued Member Ahead Row skipBlank)

/-! ## Intervals -/

namespace Interval

variable {value : String} {text rest : List Char} {iv : Interval}

/-- **A string is read as its text is.** -/
theorem takeJson_of_textValue (h : TextValue text value rest) :
    takeJson text = match ofText value with
      | .ok iv => .ok (iv, rest)
      | .error e => .error (.invalidInterval e) := by
  obtain ⟨inner, hinner, h⟩ := h.exists_quote
  simp only [takeJson, hinner, Json.string_eq_ok_iff.mpr h, bind, Except.bind]
  cases ofText value <;> rfl

theorem takeJson_eq_ok_iff : takeJson text = .ok (iv, rest) ↔
    ∃ value, TextValue text value rest ∧ ofText value = .ok iv := by
  constructor
  · intro h
    rw [takeJson] at h
    split at h
    · cases h
    · rename_i inner hinner
      simp only [bind_eq_ok_iff, Prod.exists, Json.string_eq_ok_iff] at h
      obtain ⟨value, later, hvalue, h⟩ := h
      split at h
      · rename_i hiv
        obtain ⟨rfl, rfl⟩ := Prod.mk.inj (Except.ok.inj h)
        exact ⟨value, .quotes (Json.blanks_of_eq hinner) hvalue, hiv⟩
      · cases h
    · cases h
  · rintro ⟨value, hvalue, hiv⟩
    rw [takeJson_of_textValue hvalue, hiv]

end Interval

namespace Policy

variable {fields next last : Partial} {field : PolicyField} {key : String} {fuel index : Nat}
variable {member : String × Content} {members front : List (String × Content)}
variable {texts : PolicyField → String} {fs : List PolicyField}
variable {text start here later rest : List Char}

/-! ## Objects -/

/-- A member under the name of a field that is not known yet is read as its value is. -/
theorem takeMember_known {inner : List Char} (hnone : fields field = none)
    (hcolon : Blanks text (':' :: inner)) :
    takeMember fields field.name text =
      (Interval.takeJson inner).map fun found => (fields.put field found.1, found.2) := by
  simp only [takeMember, PolicyField.ofName?_name, hnone, Json.colon_eq_ok_iff.mpr hcolon, bind,
    Except.bind, Option.isSome_none, Bool.false_eq_true, if_false]
  cases Interval.takeJson inner <;> rfl

/-- Under a name that is no field's any value is passed over. -/
theorem takeMember_eq_ok_iff_of_unknown (hname : PolicyField.ofName? key = none) :
    takeMember fields key text = .ok (next, rest) ↔
      ∃ inner, Blanks text (':' :: inner) ∧ Json.Passed .value inner rest ∧ next = fields := by
  simp only [takeMember, hname, bind_eq_ok_iff, Json.colon_eq_ok_iff, Json.skipValue_eq_ok_iff]
  constructor
  · rintro ⟨inner, hcolon, later, hvalue, h⟩
    obtain ⟨rfl, rfl⟩ := Prod.mk.inj (Except.ok.inj h)
    exact ⟨inner, hcolon, hvalue, rfl⟩
  · rintro ⟨inner, hcolon, hvalue, rfl⟩
    exact ⟨inner, hcolon, rest, hvalue, rfl⟩

/-- Under a field's name stands the text of an interval, if the field is not known yet. -/
theorem takeMember_eq_ok_iff_of_known : takeMember fields field.name text = .ok (next, rest) ↔
    ∃ inner value, Blanks text (':' :: inner) ∧ TextValue inner value rest ∧
      fields.Takes (field.name, .text value) next := by
  constructor
  · intro h
    rw [takeMember, PolicyField.ofName?_name] at h
    dsimp only at h
    split at h
    · cases h
    · rename_i hnone
      simp only [bind_eq_ok_iff, Prod.exists, Json.colon_eq_ok_iff,
        Interval.takeJson_eq_ok_iff] at h
      obtain ⟨inner, hcolon, iv, later, ⟨value, hvalue, hiv⟩, h⟩ := h
      obtain ⟨rfl, rfl⟩ := Prod.mk.inj (Except.ok.inj h)
      exact ⟨inner, value, hcolon, hvalue, .known (by simpa using hnone) hiv⟩
  · rintro ⟨inner, value, hcolon, hvalue, htakes⟩
    obtain ⟨hnone, _, iv, ⟨⟩, hiv, rfl⟩ := takes_of_known.mp htakes
    rw [takeMember_known hnone hcolon, Interval.takeJson_eq_ok_iff.mpr ⟨value, hvalue, hiv⟩]
    rfl

/-- **A member's value is read exactly if it is written behind a colon** and tells of its field. -/
theorem takeMember_eq_ok_iff : takeMember fields key text = .ok (next, rest) ↔
    ∃ inner content, Blanks text (':' :: inner) ∧ Valued inner content rest ∧
      fields.Takes (key, content) next := by
  cases hname : PolicyField.ofName? key with
  | none =>
      rw [takeMember_eq_ok_iff_of_unknown hname]
      constructor
      · rintro ⟨inner, hcolon, hvalue, rfl⟩
        exact ⟨inner, .any, hcolon, .any hvalue, .unknown hname⟩
      · rintro ⟨inner, content, hcolon, hvalue, htakes⟩
        exact ⟨inner, hcolon, hvalue.passed, (takes_of_unknown hname).mp htakes⟩
  | some field =>
      obtain rfl := ofName?_eq_some_iff.mp hname
      rw [takeMember_eq_ok_iff_of_known]
      constructor
      · rintro ⟨inner, value, hcolon, hvalue, htakes⟩
        exact ⟨inner, .text value, hcolon, .text hvalue, htakes⟩
      · rintro ⟨inner, content, hcolon, hvalue, htakes⟩
        obtain ⟨-, value, -, rfl, -⟩ := takes_of_known.mp htakes
        obtain ⟨hvalue⟩ := hvalue
        exact ⟨inner, value, hcolon, hvalue, htakes⟩

theorem takeMembers_skipBlank :
    takeMembers fuel fields (skipBlank text) = takeMembers fuel fields text := by
  cases fuel with
  | zero => rfl
  | succ fuel => simp only [takeMembers, Json.skipBlank_skipBlank]

/-- One member, and what follows it. -/
theorem takeMembers_succ (h : TextValue text key later) :
    takeMembers (fuel + 1) fields text = (do
      let found ← takeMember fields key later
      let sign ← Json.expectOneOf found.2 '}'
      if sign.1 then return (found.1, sign.2) else takeMembers fuel found.1 sign.2) := by
  obtain ⟨inner, hinner, h⟩ := h.exists_quote
  simp only [takeMembers, hinner, Json.string_eq_ok_iff.mpr h]
  rfl

/-- **Up to a place with members in order ahead of it**, reading is reading from there. -/
theorem takeMembers_of_ahead (h : Ahead Member text front here)
    (htakes : fields.TakesAll front next) :
    takeMembers (fuel + front.length) fields text = takeMembers fuel next here := by
  induction h generalizing fields with
  | none =>
      cases htakes
      rfl
  | more hmember hcomma _ ih =>
      obtain ⟨middle, hmiddle, hlater⟩ := takesAll_cons_iff.mp htakes
      obtain ⟨hkey, hcolon, hvalue⟩ := hmember
      rw [List.length_cons, ← Nat.add_assoc, takeMembers_succ hkey,
        takeMember_eq_ok_iff.mpr ⟨_, _, hcolon, hvalue, hmiddle⟩]
      simp only [bind, Except.bind,
        (Json.expectOneOf_eq_open_iff (show ',' ≠ '}' by decide)).mpr hcomma]
      exact ih hlater

/-- The last member, and the brace behind it. -/
theorem takeMembers_last (h : Member text member later) (hclose : Blanks later ('}' :: rest))
    (htakes : fields.Takes member last) :
    takeMembers (fuel + 1) fields text = .ok (last, rest) := by
  obtain ⟨hkey, hcolon, hvalue⟩ := h
  rw [takeMembers_succ hkey, takeMember_eq_ok_iff.mpr ⟨_, _, hcolon, hvalue, htakes⟩]
  simp only [bind, Except.bind,
    (Json.expectOneOf_eq_closed_iff (show Json.isBlank '}' = false by decide)).mpr hclose]
  rfl

/-- Only members that are written and in order are read. -/
theorem takeMembers_sound (h : takeMembers fuel fields text = .ok (last, rest)) :
    ∃ members, Row Member '}' text members rest ∧ members ≠ [] ∧ fields.TakesAll members last := by
  induction fuel generalizing fields text with
  | zero => cases h
  | succ fuel ih =>
      rw [takeMembers] at h
      split at h
      · cases h
      · rename_i inner hinner
        simp only [bind_eq_ok_iff, Prod.exists, Json.string_eq_ok_iff, takeMember_eq_ok_iff] at h
        obtain ⟨key, colon, hkey, next, later, ⟨value, content, hcolon, hvalue, htakes⟩, closed,
          after, hsign, h⟩ := h
        have hmember : Member text (key, content) later :=
          .pair (.quotes (Json.blanks_of_eq hinner) hkey) hcolon hvalue
        cases closed with
        | true =>
            obtain ⟨rfl, rfl⟩ := Prod.mk.inj (Except.ok.inj h)
            exact ⟨[_],
              .filled .none hmember ((Json.expectOneOf_eq_closed_iff (by decide)).mp hsign),
              by simp, takesAll_singleton_iff.mpr htakes⟩
        | false =>
            obtain ⟨members, hrow, hne, hall⟩ := ih h
            exact ⟨_ :: members,
              .cons hmember ((Json.expectOneOf_eq_open_iff (by decide)).mp hsign) hrow hne,
              by simp, .cons htakes hall⟩
      · cases h

/-- The members of an object up to one of them. -/
theorem takeObject_of_ahead (h : Ahead Member text front here) (hmember : Member here member later)
    (htakes : Partial.TakesAll (fun _ => none) front next) :
    ∃ fuel, takeObject text = takeMembers (fuel + 1) next here := by
  obtain ⟨inner, hinner⟩ := h.starts hmember fun _ _ _ => Json.Member.exists_quote
  have hlength := h.length_le fun _ _ _ => Json.Member.length_lt
  have hlater := hmember.length_lt
  obtain ⟨fuel, hfuel⟩ : ∃ fuel, (skipBlank text).length + 1 = fuel + 1 + front.length :=
    ⟨(skipBlank text).length - front.length, by omega⟩
  refine ⟨fuel, ?_⟩
  rw [← takeMembers_of_ahead h htakes, ← hfuel, ← takeMembers_skipBlank, takeObject, hinner]
  rfl

/-- **An object is read exactly if it is written and its members are in order.** -/
theorem takeObject_eq_ok_iff : takeObject text = .ok (last, rest) ↔
    ∃ members, Row Member '}' text members rest ∧
      Partial.TakesAll (fun _ => none) members last := by
  constructor
  · intro h
    rw [takeObject] at h
    split at h
    · rename_i hclose
      obtain ⟨rfl, rfl⟩ := Prod.mk.inj (Except.ok.inj h)
      exact ⟨[], .empty (Json.blanks_of_eq hclose), .nil⟩
    · obtain ⟨members, hrow, -, htakes⟩ := takeMembers_sound (takeMembers_skipBlank.symm.trans h)
      exact ⟨members, hrow, htakes⟩
  · rintro ⟨members, hclose | ⟨hahead, hmember, hclose⟩, htakes⟩
    · cases htakes
      simp only [takeObject, hclose.next (by decide)]
    · obtain ⟨next, hfront, hlast⟩ := takesAll_append_iff.mp htakes
      obtain ⟨fuel, hfuel⟩ := takeObject_of_ahead hahead hmember hfront
      rw [hfuel]
      exact takeMembers_last hmember hclose (takesAll_singleton_iff.mp hlast)

/-! ## Arrays -/

/-- The member that tells a text of a field. -/
def textMember (texts : PolicyField → String) (field : PolicyField) : String × Content :=
  (field.name, .text (texts field))

/-- The texts with another one for a field. -/
def withText (texts : PolicyField → String) (field : PolicyField) (value : String) :
    PolicyField → String :=
  fun other => if other = field then value else texts other

theorem withText_self {value : String} : withText texts field value field = value := if_pos rfl

theorem withText_of_mem {value : String} (hfield : field ∉ fs) :
    ∀ other ∈ fs, withText texts field value other = texts other := by
  rintro other hother
  exact if_neg (by rintro rfl; exact hfield hother)

theorem map_withText {value : String} (hfield : field ∉ fs) :
    (field :: fs).map (withText texts field value) = value :: fs.map texts := by
  rw [List.map_cons, withText_self, List.map_congr_left (withText_of_mem hfield)]

/-- A text more, of a field that is not known yet. -/
theorem takesAll_withText {value : String} {iv : Interval} (hfield : field ∉ fs)
    (hnone : fields field = none) (hiv : Interval.ofText value = .ok iv)
    (h : (fields.put field iv).TakesAll (fs.map (textMember texts)) last) :
    fields.TakesAll ((field :: fs).map (textMember (withText texts field value))) last := by
  have hothers : fs.map (textMember (withText texts field value)) = fs.map (textMember texts) :=
    List.map_congr_left fun other hother => by
      rw [textMember, textMember, withText_of_mem hfield other hother]
  rw [List.map_cons, hothers, textMember, withText_self]
  exact .cons (.known hnone hiv) h

/-- Where an item of an array starts: the first at the place itself, any other behind a comma. -/
inductive ItemAt : Nat → List Char → List Char → Prop
  | first {text : List Char} : ItemAt 0 text text
  | later {index : Nat} {text start : List Char} :
      Blanks text (',' :: start) → ItemAt (index + 1) text start

/-- Where an item starts and a string is, the string is found. -/
theorem exists_itemStart {value : String} (hat : ItemAt index text start)
    (h : TextValue start value rest) :
    ∃ found, itemStart index text = .ok found ∧ TextValue found value rest := by
  obtain ⟨inner, hinner, _⟩ := h.exists_quote
  cases hat with
  | first =>
      refine ⟨skipBlank text, ?_, Json.textValue_skipBlank.mpr h⟩
      simp [itemStart, hinner]
  | later hcomma =>
      refine ⟨start, ?_, h⟩
      simp [itemStart, hcomma.next (by decide), hinner]

/-- A string is found only where an item starts. -/
theorem itemAt_of_itemStart {found : List Char} {value : String}
    (hstart : itemStart index text = .ok found) (h : TextValue found value rest) :
    ∃ start, ItemAt index text start ∧ TextValue start value rest := by
  rw [itemStart] at hstart
  split at hstart
  · cases hstart
  · cases hstart
  · rename_i hinner
    split at hstart
    · subst index
      obtain rfl := Except.ok.inj hstart
      exact ⟨text, .first, Json.textValue_skipBlank.mp (hinner ▸ h)⟩
    · split at hstart
      · rename_i hindex hcomma
        obtain rfl := Except.ok.inj hstart
        obtain ⟨index, rfl⟩ := Nat.exists_eq_succ_of_ne_zero hindex
        obtain rfl := hcomma.1
        exact ⟨_, .later (Json.blanks_of_eq hinner), h⟩
      · cases hstart

/-- **An item of an array is read as its text is.** -/
theorem takeItems_cons {value : String} (hat : ItemAt index text start)
    (h : TextValue start value rest) :
    takeItems index fields text (field :: fs) = match Interval.ofText value with
      | .ok iv => takeItems (index + 1) (fields.put field iv) rest fs
      | .error e => .error (.invalidInterval e) := by
  obtain ⟨found, hstart, hvalue⟩ := exists_itemStart hat h
  simp only [takeItems, hstart, Interval.takeJson_of_textValue hvalue, bind, Except.bind]
  cases Interval.ofText value <;> rfl

theorem exists_item_of_takeItems
    (h : takeItems index fields text (field :: fs) = .ok (last, rest)) :
    ∃ start value iv later, ItemAt index text start ∧ TextValue start value later ∧
      Interval.ofText value = .ok iv ∧
        takeItems (index + 1) (fields.put field iv) later fs = .ok (last, rest) := by
  simp only [takeItems, bind_eq_ok_iff, Prod.exists, Interval.takeJson_eq_ok_iff] at h
  obtain ⟨found, hstart, iv, later, ⟨value, hvalue, hiv⟩, h⟩ := h
  obtain ⟨start, hat, hvalue⟩ := itemAt_of_itemStart hstart hvalue
  exact ⟨start, value, iv, later, hat, hvalue, hiv, h⟩

/-- **Up to a place with items in order ahead of it**, reading is reading from there. -/
theorem takeItems_of_ahead {before after : List PolicyField}
    (hat : ItemAt index text start) (h : Ahead TextValue start (before.map texts) here)
    (htakes : fields.TakesAll (before.map (textMember texts)) next) :
    ∃ index' text', ItemAt index' text' here ∧
      takeItems index fields text (before ++ after) = takeItems index' next text' after := by
  induction before generalizing index fields text start with
  | nil =>
      cases h
      cases htakes
      exact ⟨index, text, hat, rfl⟩
  | cons field before ih =>
      cases h with
      | more hvalue hcomma h =>
          obtain ⟨middle, hmiddle, hlater⟩ := takesAll_cons_iff.mp htakes
          obtain ⟨-, _, iv, ⟨⟩, hiv, rfl⟩ := takes_of_known.mp hmiddle
          obtain ⟨index', text', hat', heq⟩ := ih (.later hcomma) h hlater
          refine ⟨index', text', hat', ?_⟩
          rw [List.cons_append, takeItems_cons hat hvalue, hiv]
          exact heq

/-- All items are read exactly if the closing bracket comes next. -/
theorem takeItems_nil_eq_ok_iff : takeItems index fields text [] = .ok (last, rest) ↔
    Blanks text (']' :: rest) ∧ last = fields := by
  rw [← Json.skipBlank_eq_cons_iff (by decide), takeItems]
  split
  · rename_i h
    simp [h]
  · rename_i h
    simp [h, eq_comm, and_comm]
  · rename_i h
    simpa using fun hclose _ => h rest hclose

/-- Only items that are written and in order are read. -/
theorem takeItems_sound (hne : fs ≠ []) (hfs : fs.Nodup)
    (hfields : ∀ other ∈ fs, fields other = none)
    (h : takeItems index fields text fs = .ok (last, rest)) :
    ∃ (texts : PolicyField → String) (start : List Char), ItemAt index text start ∧
      Row TextValue ']' start (fs.map texts) rest ∧
        fields.TakesAll (fs.map (textMember texts)) last := by
  induction fs generalizing index fields text with
  | nil => exact absurd rfl hne
  | cons field fs ih =>
      obtain ⟨start, value, iv, later, hat, hvalue, hiv, h⟩ := exists_item_of_takeItems h
      obtain ⟨hfield, hfs⟩ := List.nodup_cons.mp hfs
      obtain ⟨hnone, hfields⟩ := List.forall_mem_cons.mp hfields
      by_cases hlast : fs = []
      · subst fs
        obtain ⟨hclose, rfl⟩ := takeItems_nil_eq_ok_iff.mp h
        exact ⟨fun _ => value, start, hat, .filled .none hvalue hclose,
          .cons (.known hnone hiv) .nil⟩
      · obtain ⟨texts, _, hcomma, hrow, htakes⟩ :=
          ih hlast hfs (Partial.put_eq_none iv hfield hfields) h
        cases hcomma with | later hcomma =>
        refine ⟨withText texts field value, start, hat, ?_,
          takesAll_withText hfield hnone hiv htakes⟩
        rw [map_withText hfield]
        exact .cons hvalue hcomma hrow (by simpa using hlast)

/-- **An array is read exactly if it is written, a text for each field**, and the texts are those of
intervals. -/
theorem takeArray_eq_ok_iff :
    takeItems 0 (fun _ => none) text PolicyField.all = .ok (last, rest) ↔
      ∃ texts, Row TextValue ']' text (PolicyField.all.map texts) rest ∧
        Partial.TakesAll (fun _ => none) (PolicyField.all.map (textMember texts)) last := by
  constructor
  · intro h
    obtain ⟨texts, start, ⟨⟩, hrow, htakes⟩ :=
      takeItems_sound (by decide) (by decide) (fun _ _ => rfl) h
    exact ⟨texts, hrow, htakes⟩
  · rintro ⟨texts, hrow, htakes⟩
    generalize hvalues : PolicyField.all.map texts = values at hrow
    cases hrow with
    | empty => cases hvalues
    | filled hahead hvalue hclose =>
        obtain ⟨before, _, hall, rfl, hfield⟩ := List.map_eq_append_iff.mp hvalues
        obtain ⟨field, rfl, rfl⟩ := List.map_eq_singleton_iff.mp hfield
        rw [hall, List.map_append] at htakes
        obtain ⟨next, hfront, htakes⟩ := takesAll_append_iff.mp htakes
        obtain ⟨-, _, iv, ⟨⟩, hiv, rfl⟩ := takes_of_known.mp (takesAll_singleton_iff.mp htakes)
        obtain ⟨index, text', hat, heq⟩ := takeItems_of_ahead .first hahead hfront
        rw [hall, heq, takeItems_cons hat hvalue, hiv]
        exact takeItems_nil_eq_ok_iff.mpr ⟨hclose, rfl⟩

end Policy

end SplitHello
