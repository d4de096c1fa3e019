import SplitHello.Proofs.Policy.Faults
import SplitHello.Proofs.Policy.Text

/-!
# Proofs/Policy/Document — which documents are those of a policy

A document holds four texts as an object with a member for each field, in any order and among other
members, or as an array of the four.  It denotes a policy exactly if the texts are those of its
intervals, and where they are not, the first such text is what is reported, whatever comes after it.

* `takeJson_eq_ok_iff` — what a document holds decides which policy is read;
* `takeJson_eq_invalid_iff` — the first text that is no interval's is what is reported;
* `holds_toJson` — the document of a policy holds the texts of its intervals;
* `ofJson_holds` — documents read, documents refused, and policies written and read again.
-/

namespace SplitHello.Policy

open Json (Blanks TextValue Content Member Ahead Row Fault)

variable {policy : Policy} {fields : Partial} {field : PolicyField} {e : PolicyError}
variable {texts : PolicyField → String} {members : List (String × Content)}
variable {text rest : List Char}

/-! ## What a document holds -/

/-- A document holds a text for each field: as an object with one member under each field's name,
whatever other members it has, or as an array in the fields' own order. -/
inductive HoldsAt (texts : PolicyField → String) : List Char → List Char → Prop
  | object {text inner rest : List Char} {members : List (String × Content)} :
      Blanks text ('{' :: inner) → Row Member '}' inner members rest →
      (∀ field, membersOf members field = [textMember texts field]) → HoldsAt texts text rest
  | array {text inner rest : List Char} :
      Blanks text ('[' :: inner) → Row TextValue ']' inner (PolicyField.all.map texts) rest →
        HoldsAt texts text rest

/-- Nothing but such a document. -/
def Holds (texts : PolicyField → String) (document : String) : Prop :=
  ∃ rest, HoldsAt texts document.toList rest ∧ Blanks rest []

/-- The members of each field are in order: there is none, or one with the text of an interval. -/
def Clean (members : List (String × Content)) : Prop :=
  ∀ field, membersOf members field = [] ∨
    ∃ text iv, membersOf members field = [(field.name, .text text)] ∧ Interval.ofText text = .ok iv

/-- The first problem of a document is a text that is no interval's: all is in order ahead of it,
and nobody looks at what follows it. -/
inductive Spoilt (e : PolicyError) : List Char → Prop
  | object {text inner here rest : List Char} {front : List (String × Content)}
      {field : PolicyField} {value : String} :
      Blanks text ('{' :: inner) → Ahead Member inner front here → Clean front →
      membersOf front field = [] → Member here (field.name, .text value) rest →
      Interval.ofText value = .error e → Spoilt e text
  | array {text inner here rest : List Char} {before after : List PolicyField}
      {field : PolicyField} {texts : PolicyField → String} :
      PolicyField.all = before ++ field :: after → Blanks text ('[' :: inner) →
      Ahead TextValue inner (before.map texts) here →
      (∀ other ∈ before, ∃ iv, Interval.ofText (texts other) = .ok iv) →
      TextValue here (texts field) rest → Interval.ofText (texts field) = .error e → Spoilt e text

/-! ## All fields -/

theorem require_eq_ok_iff {iv : Interval} :
    fields.require field = .ok iv ↔ fields field = some iv := by
  rw [Partial.require]
  cases fields field <;> simp

/-- A policy is made of its fields. -/
theorem ofPartial_eq_ok_iff :
    ofPartial fields = .ok policy ↔ fields = fun field => some (policy.get field) := by
  simp only [ofPartial, bind_eq_ok_iff, require_eq_ok_iff]
  constructor
  · rintro ⟨_, hbefore, _, hsni, _, hafter, _, hdelay, h⟩
    obtain rfl := Except.ok.inj h
    funext field
    cases field with
    | beforeSni => exact hbefore
    | sni => exact hsni
    | afterSni => exact hafter
    | delayMs => exact hdelay
  · rintro rfl
    exact ⟨_, rfl, _, rfl, _, rfl, _, rfl, rfl⟩

/-- **Members are in order and tell all of a policy** exactly if each field has one member, with the
text of its interval. -/
theorem takesAll_get_iff :
    Partial.TakesAll (fun _ => none) members (fun field => some (policy.get field)) ↔
      ∃ texts : PolicyField → String,
        (∀ field, membersOf members field = [textMember texts field]) ∧
          ∀ field, Interval.ofText (texts field) = .ok (policy.get field) := by
  rw [takesAll_iff]
  constructor
  · intro h
    have htext : ∀ field, ∃ text, membersOf members field = [(field.name, .text text)] ∧
        Interval.ofText text = .ok (policy.get field) :=
      fun field => tells_none_some_iff.mp (h field)
    obtain ⟨texts, htexts⟩ := Classical.axiomOfChoice htext
    exact ⟨texts, fun field => (htexts field).1, fun field => (htexts field).2⟩
  · rintro ⟨texts, hmembers, htexts⟩ field
    exact tells_none_some_iff.mpr ⟨texts field, hmembers field, htexts field⟩

/-- **Members are in order exactly if they can be taken.** -/
theorem clean_iff :
    Clean members ↔ ∃ next : Partial, Partial.TakesAll (fun _ => none) members next := by
  simp only [Clean, takesAll_iff, ← Classical.skolem, exists_tells_none_iff]

/-- The members that tell texts of some fields tell one text of each. -/
theorem membersOf_map_textMember {fs : List PolicyField} (h : fs.Nodup) :
    membersOf (fs.map (textMember texts)) field =
      if field ∈ fs then [textMember texts field] else [] := by
  induction fs with
  | nil => rfl
  | cons other fs ih =>
      obtain ⟨hother, hfs⟩ := List.nodup_cons.mp h
      by_cases heq : field = other
      · subst heq
        rw [List.map_cons, textMember, membersOf_cons_self, ih hfs, if_neg hother,
          if_pos List.mem_cons_self]
      · rw [List.map_cons, membersOf_cons_of_ne fun hname => heq (name_inj.mp hname).symm, ih hfs]
        simp only [List.mem_cons, heq, false_or]

theorem membersOf_all : membersOf (PolicyField.all.map (textMember texts)) field =
    [textMember texts field] := by
  rw [membersOf_map_textMember (by decide), if_pos (by cases field <;> decide)]

/-- Texts of different fields are in order exactly if each is that of an interval. -/
theorem clean_map_textMember_iff {fs : List PolicyField} (h : fs.Nodup) :
    Clean (fs.map (textMember texts)) ↔
      ∀ field ∈ fs, ∃ iv, Interval.ofText (texts field) = .ok iv := by
  simp only [Clean, membersOf_map_textMember h]
  refine forall_congr' fun field => ?_
  by_cases hfield : field ∈ fs <;> simp [hfield, textMember]

theorem takesAll_all_iff : Partial.TakesAll (fun _ => none) (PolicyField.all.map (textMember texts))
      (fun field => some (policy.get field)) ↔
    ∀ field, Interval.ofText (texts field) = .ok (policy.get field) := by
  simp [takesAll_iff, membersOf_all, tells_none_some_iff, textMember]

/-! ## Documents that are read -/

theorem finish_eq_ok_iff {found : Except Fault (Partial × List Char)} :
    (found >>= fun found => (ofPartial found.1).map fun policy => (policy, found.2)) =
        .ok (policy, rest) ↔
      found = .ok (fun field => some (policy.get field), rest) := by
  simp only [bind_eq_ok_iff, map_eq_ok_iff, ofPartial_eq_ok_iff, Prod.exists, Prod.mk.injEq]
  constructor
  · rintro ⟨_, _, h, _, rfl, rfl, rfl⟩
    exact h
  · exact fun h => ⟨_, _, h, _, rfl, rfl, rfl⟩

/-- **What a document holds decides which policy is read.** -/
theorem takeJson_eq_ok_iff : takeJson text = .ok (policy, rest) ↔
    ∃ texts, HoldsAt texts text rest ∧
      ∀ field, Interval.ofText (texts field) = .ok (policy.get field) := by
  constructor
  · intro h
    rw [takeJson] at h
    split at h
    · cases h
    · rename_i inner hinner
      obtain ⟨members, hrow, htakes⟩ := takeObject_eq_ok_iff.mp (finish_eq_ok_iff.mp h)
      obtain ⟨texts, hmembers, htexts⟩ := takesAll_get_iff.mp htakes
      exact ⟨texts, .object (Json.blanks_of_eq hinner) hrow hmembers, htexts⟩
    · rename_i inner hinner
      obtain ⟨texts, hrow, htakes⟩ := takeArray_eq_ok_iff.mp (finish_eq_ok_iff.mp h)
      exact ⟨texts, .array (Json.blanks_of_eq hinner) hrow, takesAll_all_iff.mp htakes⟩
    · cases h
  · rintro ⟨texts, ⟨hopen, hrow, hmembers⟩ | ⟨hopen, hrow⟩, htexts⟩
    · simp only [takeJson, hopen.next (by decide)]
      exact finish_eq_ok_iff.mpr (takeObject_eq_ok_iff.mpr
        ⟨_, hrow, takesAll_get_iff.mpr ⟨texts, hmembers, htexts⟩⟩)
    · simp only [takeJson, hopen.next (by decide)]
      exact finish_eq_ok_iff.mpr (takeArray_eq_ok_iff.mpr
        ⟨texts, hrow, takesAll_all_iff.mpr htexts⟩)

theorem wholeDocument_eq_ok_iff {α : Type} {read : Except Fault (α × List Char)} {a : α} :
    wholeDocument read = .ok a ↔ ∃ rest, read = .ok (a, rest) ∧ Blanks rest [] := by
  simp only [wholeDocument, bind_eq_ok_iff, Prod.exists, ← Json.skipBlank_eq_nil_iff]
  constructor
  · rintro ⟨_, rest, h, hrest⟩
    split at hrest
    · rename_i hempty
      obtain rfl := Except.ok.inj hrest
      exact ⟨rest, h, List.isEmpty_iff.mp hempty⟩
    · cases hrest
  · rintro ⟨rest, h, hrest⟩
    exact ⟨a, rest, h, by rw [hrest]; rfl⟩

theorem ofJson_eq_ok_iff {document : String} : ofJson document = .ok policy ↔
    ∃ texts, Holds texts document ∧
      ∀ field, Interval.ofText (texts field) = .ok (policy.get field) := by
  simp only [ofJson, wholeDocument_eq_ok_iff, takeJson_eq_ok_iff, Holds]
  constructor
  · rintro ⟨rest, ⟨texts, hholds, htexts⟩, hrest⟩
    exact ⟨texts, ⟨rest, hholds, hrest⟩, htexts⟩
  · rintro ⟨texts, ⟨rest, hholds, hrest⟩, htexts⟩
    exact ⟨rest, ⟨texts, hholds, htexts⟩, hrest⟩

/-! ## Documents that are refused -/

/-- The fields ahead of one in their own order are different ones. -/
theorem nodup_before {before after : List PolicyField}
    (hall : PolicyField.all = before ++ field :: after) : before.Nodup := by
  have hfields : (before ++ field :: after).Nodup := hall ▸ by decide
  exact (List.nodup_append.mp hfields).1

/-- What is made of the fields that were read is not refused for a text. -/
theorem finish_eq_invalid_iff {found : Except Fault (Partial × List Char)} :
    (found >>= fun found => (ofPartial found.1).map fun policy => (policy, found.2)) =
        .error (.invalidInterval e) ↔
      found = .error (.invalidInterval e) := by
  rw [bind_eq_error_iff, or_iff_left]
  rintro ⟨found, -, h⟩
  cases hmade : ofPartial found.1 with
  | ok policy =>
      rw [hmade] at h
      cases h
  | error fault =>
      rw [hmade] at h
      obtain rfl : fault = .invalidInterval e := Except.error.inj h
      exact ofPartial_ne_invalid hmade

/-- **A document is refused for the first text that is no interval's**, and for no other. -/
theorem takeJson_eq_invalid_iff : takeJson text = .error (.invalidInterval e) ↔ Spoilt e text := by
  constructor
  · intro h
    rw [takeJson] at h
    split at h
    · cases h
    · rename_i inner hinner
      obtain ⟨front, next, field, value, here, rest, hahead, htakes, hnone, hmember, he⟩ :=
        takeObject_eq_invalid_iff.mp (finish_eq_invalid_iff.mp h)
      have hfield : membersOf front field = [] :=
        tells_none_none_iff.mp (hnone ▸ takesAll_iff.mp htakes field)
      exact .object (Json.blanks_of_eq hinner) hahead (clean_iff.mpr ⟨next, htakes⟩) hfield
        hmember he
    · rename_i inner hinner
      obtain ⟨before, field, after, texts, next, here, rest, hall, hahead, htakes, hvalue, he⟩ :=
        takeArray_eq_invalid_iff.mp (finish_eq_invalid_iff.mp h)
      have hbefore : before.Nodup := nodup_before hall
      exact .array hall (Json.blanks_of_eq hinner) hahead
        ((clean_map_textMember_iff hbefore).mp (clean_iff.mpr ⟨next, htakes⟩)) hvalue he
    · rename_i c inner _ _ _
      obtain ⟨found, hfound⟩ | hfound | hfound := Json.wrongType_cases documentName c inner <;>
        simp [hfound] at h
  · rintro (⟨hopen, hahead, hclean, hfield, hmember, he⟩ |
      ⟨hall, hopen, hahead, htexts, hvalue, he⟩)
    · obtain ⟨next, htakes⟩ := clean_iff.mp hclean
      simp only [takeJson, hopen.next (by decide)]
      exact finish_eq_invalid_iff.mpr (takeObject_eq_invalid_iff.mpr ⟨_, next, _, _, _, _, hahead,
        htakes, tells_nil_iff.mp (hfield ▸ takesAll_iff.mp htakes _), hmember, he⟩)
    · have hbefore := nodup_before hall
      obtain ⟨next, htakes⟩ := clean_iff.mp ((clean_map_textMember_iff hbefore).mpr htexts)
      simp only [takeJson, hopen.next (by decide)]
      exact finish_eq_invalid_iff.mpr (takeArray_eq_invalid_iff.mpr ⟨_, _, _, _, next, _, _, hall,
        hahead, htakes, hvalue, he⟩)

theorem ofJson_eq_invalid_iff {document : String} :
    ofJson document = .error (.invalidInterval e) ↔ Spoilt e document.toList := by
  rw [ofJson, wholeDocument, bind_eq_error_iff, takeJson_eq_invalid_iff, or_iff_left]
  rintro ⟨found, -, h⟩
  dsimp only at h
  split at h <;> cases h

/-! ## Documents that are written -/

/-- The texts of the intervals of a policy. -/
def textOf (policy : Policy) (field : PolicyField) : String := (policy.get field).text

theorem isPlain_of_isDigit {c : Char} (h : c.isDigit = true) : Json.isPlain c = true := by
  have hrange := Text.toNat_of_isDigit h
  have hquote : c ≠ '"' := by rintro rfl; simp at h
  have hslash : c ≠ '\\' := by rintro rfl; simp at h
  simp only [Json.isPlain, hquote, hslash, ne_eq, not_false_eq_true, decide_true, Bool.and_self,
    Bool.true_and, decide_eq_true_eq]
  omega

/-- No letter of a field's name or of an interval's text needs an escape. -/
theorem member_textMember (policy : Policy) (field : PolicyField) (rest : List Char) :
    Member ((policy.member field).toList ++ rest) (textMember policy.textOf field) rest := by
  have hwritten : (policy.member field).toList ++ rest = '"' :: (field.name.toList ++ '"' ::
      (':' :: '"' :: ((policy.get field).text.toList ++ '"' :: rest))) := by
    simp [Policy.member, Interval.toJson, String.toList_append]
  have hname : field.name.toList.all Json.isPlain = true := by cases field <;> decide
  have htext : (policy.get field).text.toList.all Json.isPlain = true := by
    refine List.all_eq_true.mpr fun c hc => ?_
    obtain hdigit | rfl := Interval.isDigit_or_hyphen_of_mem_text hc
    · exact isPlain_of_isDigit hdigit
    · decide
  rw [hwritten]
  exact .pair (.quotes (.refl _) (Json.spelled_append hname _)) (.refl _)
    (.text (.quotes (.refl _) (Json.spelled_append htext _)))

/-- **The document of a policy holds the texts of its intervals.** -/
theorem holds_toJson (policy : Policy) : Holds policy.textOf policy.toJson := by
  have hwritten : policy.toJson.toList = '{' :: ((policy.member .beforeSni).toList ++ ',' ::
      ((policy.member .sni).toList ++ ',' :: ((policy.member .afterSni).toList ++ ',' ::
        ((policy.member .delayMs).toList ++ ['}'])))) := by
    simp [toJson, PolicyField.all, String.toList_append]
  refine ⟨[], ?_, .refl _⟩
  rw [hwritten]
  exact .object (.refl _) (.filled
    (.more (member_textMember policy _ _) (.refl _)
      (.more (member_textMember policy _ _) (.refl _)
        (.more (member_textMember policy _ _) (.refl _) .none)))
    (member_textMember policy .delayMs _) (.refl _)) fun _ => membersOf_all

/-- **A document denotes a policy exactly if it holds texts of its intervals**, so the policy's own
document does, and any that holds the same texts.  Each text of a document that is read says bounds
in order.  A document is refused for a text that is no interval's exactly if that is its first
problem, and then with the words for that. -/
theorem ofJson_holds (policy : Policy) (document : String) :
    ofJson policy.toJson = .ok policy ∧
    (Holds policy.textOf document → ofJson document = .ok policy) ∧
    (ofJson document = .ok policy ↔ ∃ texts, Holds texts document ∧
      ∀ field, Interval.ofText (texts field) = .ok (policy.get field)) ∧
    (ofJson document = .ok policy → ∃ texts, Holds texts document ∧ ∀ field,
      Interval.Says (texts field).toList (policy.get field).min (policy.get field).max ∧
        (policy.get field).min ≤ (policy.get field).max) ∧
    (∀ e, ofJson document = .error (.invalidInterval e) ↔ Spoilt e document.toList) ∧
    (∀ e, Spoilt e document.toList → ∃ fault,
      ofJson document = .error fault ∧ fault.message = some e.message) := by
  have hread : ∀ document, Holds policy.textOf document → ofJson document = .ok policy :=
    fun document h => ofJson_eq_ok_iff.mpr ⟨_, h, fun field => Interval.ofText_text _⟩
  refine ⟨hread _ (holds_toJson policy), hread document, ofJson_eq_ok_iff, fun h => ?_,
    fun e => ofJson_eq_invalid_iff, fun e h => ?_⟩
  · obtain ⟨texts, hholds, htexts⟩ := ofJson_eq_ok_iff.mp h
    exact ⟨texts, hholds, fun field =>
      ⟨Interval.ofText_eq_ok_iff.mp (htexts field), (policy.get field).min_le_max⟩⟩
  · exact ⟨.invalidInterval e, ofJson_eq_invalid_iff.mpr h, rfl⟩

/-- The default policy with its keys out of order, a key of no field and blanks. -/
def sampleDocument : String :=
  "\x7b \"delay_ms\":\"10-20\", \"sni\": \"1-2\", \"note\": [1.5e3, null]," ++
    " \"after_sni\":\"1-2\", \"before_sni\" : \"\\u0032000\" \x7d"

/-- An array whose second text is no interval's, and then no array at all. -/
def sampleSpoilt : String := "[\"5\", \"9-3\" nothing"

/-- The texts of the array up to the one that is no interval's. -/
def sampleTexts (field : PolicyField) : String := if field = .sni then "9-3" else "5"

theorem ofText_sample : Interval.ofText "9-3" = .error (.invalidRange 9 3) := by
  have hfirst : Text.IsNumeral (Text.trim ['9']) 9 :=
    ⟨['9'], .inl (by decide +kernel), by simp, by simp, rfl⟩
  have hsecond : Text.IsNumeral (Text.trim ['3']) 3 :=
    ⟨['3'], .inl (by decide +kernel), by simp, by simp, rfl⟩
  have hsaid : Interval.Says "9-3".toList 9 3 :=
    Interval.Says.range (show '-' ∉ ['9'] by simp) hfirst hsecond
  rw [Interval.ofText_eq_ofBounds hsaid, Interval.ofBounds_eq_error_iff]
  exact ⟨rfl, by decide⟩

theorem spoilt_sample : Spoilt (.invalidRange 9 3) sampleSpoilt.toList := by
  have hwritten : sampleSpoilt.toList = '[' :: '"' :: ("5".toList ++ '"' :: ',' :: ' ' :: '"' ::
      ("9-3".toList ++ '"' :: " nothing".toList)) := by decide +kernel
  have hfirst : Interval.ofText (sampleTexts .beforeSni) = .ok (.single 5) :=
    Interval.ofText_text (.single 5)
  have hvalue : TextValue (' ' :: '"' :: ("9-3".toList ++ '"' :: " nothing".toList))
      (sampleTexts .sni) " nothing".toList :=
    .quotes ⟨[' '], rfl, by simp [Json.isBlank]⟩ (Json.spelled_append (by decide) _)
  rw [hwritten]
  refine @Spoilt.array _ _ _ _ _ [.beforeSni] [.afterSni, .delayMs] .sni sampleTexts rfl (.refl _)
    (.more (.quotes (.refl _) (Json.spelled_append (by decide) _)) (.refl _) .none) ?_
    hvalue ofText_sample
  simpa using ⟨_, hfirst⟩

/-- The first document denotes the default policy, so it holds texts of its intervals; the second is
refused with the words for its second text, though it ends in none of the ways that arrays do. -/
theorem ofJson_holds_sample :
    (∃ texts, Holds texts sampleDocument ∧
      ∀ field, Interval.ofText (texts field) = .ok (Policy.default.get field)) ∧
    ∃ fault, ofJson sampleSpoilt = .error fault ∧
      fault.message = some "invalid range: min 9 exceeds max 3" := by
  have hread : (ofJson sampleDocument).toOption = some Policy.default := by decide +kernel
  have hok : ofJson sampleDocument = .ok Policy.default := by
    cases h : ofJson sampleDocument with
    | error e => simp [h, Except.toOption] at hread
    | ok found => simpa [h, Except.toOption] using hread
  obtain ⟨-, -, hholds, -, -, -⟩ := ofJson_holds Policy.default sampleDocument
  obtain ⟨-, -, -, -, -, hspoilt⟩ := ofJson_holds Policy.default sampleSpoilt
  exact ⟨hholds.mp hok, hspoilt _ spoilt_sample⟩

end SplitHello.Policy
