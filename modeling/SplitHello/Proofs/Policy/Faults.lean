import SplitHello.Proofs.Json.Faults
import SplitHello.Proofs.Policy.Reading

/-!
# Proofs/Policy/Faults — which texts are refused

The fault of an interval's text comes from that text alone: the other readers fail by the form of
the document, or by the names of its fields.  So a reader has such a fault exactly if it gets to a
string that is no interval's text, with members or items in order ahead of it.

* `Interval.takeJson_eq_invalid_iff` — a string is refused as its text is;
* `takeObject_eq_invalid_iff`, `takeArray_eq_invalid_iff` — the first such string is what is
  reported, and nothing else is reported so.
-/

namespace SplitHello

open Json (Blanks TextValue Member Ahead)

variable {e : PolicyError} {text : List Char}

/-! ## Intervals -/

/-- **A string is refused as its text is**, and only a string is. -/
theorem Interval.takeJson_eq_invalid_iff : takeJson text = .error (.invalidInterval e) ↔
    ∃ value rest, TextValue text value rest ∧ ofText value = .error e := by
  constructor
  · intro h
    rw [takeJson] at h
    split at h
    · cases h
    · rename_i inner hinner
      obtain ⟨⟨value, rest⟩, hvalue, h⟩ := (Json.byForm_string inner).bind_eq_invalid_iff.mp h
      dsimp only at h
      split at h
      · cases h
      · rename_i hfault
        obtain rfl := Json.Fault.invalidInterval.inj (Except.error.inj h)
        exact ⟨value, rest, .quotes (Json.blanks_of_eq hinner) (Json.string_eq_ok_iff.mp hvalue),
          hfault⟩
    · rename_i c inner _ _
      obtain ⟨found, hfound⟩ | hfound | hfound := Json.wrongType_cases "a string" c inner <;>
        simp [hfound] at h
  · rintro ⟨value, rest, hvalue, he⟩
    rw [takeJson_of_textValue hvalue, he]

namespace Policy

variable {fields : Partial} {fs : List PolicyField} {key : String} {fuel index : Nat}

/-! ## Objects -/

/-- A member's value is refused exactly if its field is not known yet and its string is refused. -/
theorem takeMember_eq_invalid_iff : takeMember fields key text = .error (.invalidInterval e) ↔
    ∃ field inner, field.name = key ∧ fields field = none ∧ Blanks text (':' :: inner) ∧
      Interval.takeJson inner = .error (.invalidInterval e) := by
  constructor
  · intro h
    rw [takeMember] at h
    split at h
    · obtain ⟨inner, -, h⟩ := (Json.byForm_colon text).bind_eq_invalid_iff.mp h
      obtain ⟨later, -, h⟩ := (Json.byForm_skipValue inner).bind_eq_invalid_iff.mp h
      cases h
    · rename_i field hname
      split at h
      · cases h
      · rename_i hnone
        obtain ⟨inner, hcolon, h⟩ := (Json.byForm_colon text).bind_eq_invalid_iff.mp h
        refine ⟨field, inner, ofName?_eq_some_iff.mp hname, by simpa using hnone,
          Json.colon_eq_ok_iff.mp hcolon, ?_⟩
        obtain h | ⟨found, -, h⟩ := bind_eq_error_iff.mp h
        · exact h
        · cases h
  · rintro ⟨field, inner, rfl, hnone, hcolon, h⟩
    rw [takeMember_known hnone hcolon, h]
    rfl

/-- Members are refused only behind members in order, at one whose field is not known yet. -/
theorem exists_ahead_of_takeMembers
    (h : takeMembers fuel fields text = .error (.invalidInterval e)) :
    ∃ front next field value here rest, Ahead Member text front here ∧
      fields.TakesAll front next ∧ next field = none ∧
      Member here (field.name, .text value) rest ∧ Interval.ofText value = .error e := by
  induction fuel generalizing fields text with
  | zero => cases h
  | succ fuel ih =>
      rw [takeMembers] at h
      split at h
      · cases h
      · rename_i inner hinner
        obtain ⟨⟨key, colon⟩, hkey, h⟩ := (Json.byForm_string inner).bind_eq_invalid_iff.mp h
        have hkey : TextValue text key colon :=
          .quotes (Json.blanks_of_eq hinner) (Json.string_eq_ok_iff.mp hkey)
        obtain hrefused | ⟨found, hread, h⟩ := bind_eq_error_iff.mp h
        · obtain ⟨field, inner, rfl, hnone, hcolon, hrefused⟩ :=
            takeMember_eq_invalid_iff.mp hrefused
          obtain ⟨value, rest, hvalue, he⟩ := Interval.takeJson_eq_invalid_iff.mp hrefused
          exact ⟨[], fields, field, value, text, rest, .none, .nil, hnone,
            .pair hkey hcolon (.text hvalue), he⟩
        · obtain ⟨inner, content, hcolon, hvalue, htakes⟩ := takeMember_eq_ok_iff.mp hread
          obtain ⟨⟨_ | _, later⟩, hsign, h⟩ :=
            (Json.byForm_expectOneOf found.2 '}').bind_eq_invalid_iff.mp h
          · obtain ⟨front, next, field, value, here, rest, hahead, hall, hrest⟩ := ih h
            exact ⟨_, next, field, value, here, rest,
              .more (.pair hkey hcolon hvalue)
                ((Json.expectOneOf_eq_open_iff (by decide)).mp hsign) hahead,
              .cons htakes hall, hrest⟩
          · cases h
      · cases h

/-- **The first member whose string is refused is what is reported**, if all ahead of it is in order
and its field is not known yet; and nothing else is reported so. -/
theorem takeObject_eq_invalid_iff : takeObject text = .error (.invalidInterval e) ↔
    ∃ front next field value here rest, Ahead Member text front here ∧
      Partial.TakesAll (fun _ => none) front next ∧ next field = none ∧
      Member here (field.name, .text value) rest ∧ Interval.ofText value = .error e := by
  constructor
  · intro h
    rw [takeObject] at h
    split at h
    · cases h
    · exact exists_ahead_of_takeMembers (takeMembers_skipBlank.symm.trans h)
  · rintro ⟨front, next, field, value, here, rest, hahead, htakes, hnone, hmember, he⟩
    obtain ⟨fuel, hobject⟩ := takeObject_of_ahead hahead hmember htakes
    obtain ⟨hkey, hcolon, ⟨hvalue⟩⟩ := hmember
    have hrefused := Interval.takeJson_eq_invalid_iff.mpr ⟨value, rest, hvalue, he⟩
    rw [hobject, takeMembers_succ hkey,
      takeMember_eq_invalid_iff.mpr ⟨field, _, rfl, hnone, hcolon, hrefused⟩]
    rfl

/-! ## Arrays -/

/-- Where no item starts, the document is too short or not of that form. -/
theorem itemStart_ne_invalid : itemStart index text ≠ .error (.invalidInterval e) := by
  fun_cases itemStart index text <;> simp

/-- Items are refused only behind items in order. -/
theorem exists_ahead_of_takeItems (hfs : fs.Nodup) (hfields : ∀ other ∈ fs, fields other = none)
    (h : takeItems index fields text fs = .error (.invalidInterval e)) :
    ∃ before field after texts start next here rest, fs = before ++ field :: after ∧
      ItemAt index text start ∧ Ahead TextValue start (before.map texts) here ∧
      fields.TakesAll (before.map (textMember texts)) next ∧
      TextValue here (texts field) rest ∧ Interval.ofText (texts field) = .error e := by
  induction fs generalizing index fields text with
  | nil =>
      rw [takeItems] at h
      split at h <;> cases h
  | cons field fs ih =>
      obtain ⟨hfield, hfs⟩ := List.nodup_cons.mp hfs
      obtain ⟨hnone, hfields⟩ := List.forall_mem_cons.mp hfields
      rw [takeItems] at h
      obtain hstart | ⟨found, hstart, h⟩ := bind_eq_error_iff.mp h
      · exact absurd hstart itemStart_ne_invalid
      · obtain hread | ⟨⟨iv, later⟩, hread, h⟩ := bind_eq_error_iff.mp h
        · obtain ⟨value, rest, hvalue, he⟩ := Interval.takeJson_eq_invalid_iff.mp hread
          obtain ⟨start, hat, hvalue⟩ := itemAt_of_itemStart hstart hvalue
          exact ⟨[], field, fs, fun _ => value, start, fields, start, rest, rfl, hat, .none,
            .nil, hvalue, he⟩
        · obtain ⟨value, hvalue, hiv⟩ := Interval.takeJson_eq_ok_iff.mp hread
          obtain ⟨start, hat, hvalue⟩ := itemAt_of_itemStart hstart hvalue
          obtain ⟨before, refused, after, texts, _, next, here, rest, rfl, hcomma, hahead, htakes,
            hrefused, he⟩ := ih hfs (Partial.put_eq_none iv hfield hfields) h
          cases hcomma with | later hcomma =>
          have hbefore : field ∉ before := fun hmem => hfield (List.mem_append_left _ hmem)
          have htext : withText texts field value refused = texts refused :=
            withText_of_mem hfield refused (by simp)
          refine ⟨field :: before, refused, after, withText texts field value, start, next, here,
            rest, rfl, hat, ?_, takesAll_withText hbefore hnone hiv htakes, by rwa [htext],
            by rwa [htext]⟩
          rw [map_withText hbefore]
          exact .more hvalue hcomma hahead

/-- **The first item that is refused is what is reported**, and nothing else is reported so. -/
theorem takeArray_eq_invalid_iff :
    takeItems 0 (fun _ => none) text PolicyField.all = .error (.invalidInterval e) ↔
      ∃ before field after texts next here rest, PolicyField.all = before ++ field :: after ∧
        Ahead TextValue text (before.map texts) here ∧
        Partial.TakesAll (fun _ => none) (before.map (textMember texts)) next ∧
        TextValue here (texts field) rest ∧ Interval.ofText (texts field) = .error e := by
  constructor
  · intro h
    obtain ⟨before, field, after, texts, _, next, here, rest, hall, ⟨⟩, hrest⟩ :=
      exists_ahead_of_takeItems (by decide) (fun _ _ => rfl) h
    exact ⟨before, field, after, texts, next, here, rest, hall, hrest⟩
  · rintro ⟨before, field, after, texts, next, here, rest, hall, hahead, htakes, hvalue, he⟩
    obtain ⟨index, text', hat, harray⟩ := takeItems_of_ahead .first hahead htakes
    rw [hall, harray, takeItems_cons hat hvalue, he]

/-! ## Whole policies -/

/-- A policy that lacks a field is not refused for a text. -/
theorem ofPartial_ne_invalid : ofPartial fields ≠ .error (.invalidInterval e) := by
  have hrequire : ∀ field, fields.require field ≠ .error (.invalidInterval e) := by
    intro field
    fun_cases Partial.require fields field <;> simp
  simp [ofPartial, bind_eq_error_iff, hrequire, pure, Except.pure]

end Policy

end SplitHello
