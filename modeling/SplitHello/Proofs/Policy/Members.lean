import SplitHello.Policy.Document
import SplitHello.Proofs.Json.Collection

/-!
# Proofs/Policy/Members — what the members of an object tell of the fields of a policy

The members are taken in turn, and a field stays what its member made it.  So the fields at the end
depend on each field's own members only: there may be one for a field that was not known, and none
for one that was.  Neither the order of the members nor any others matter.

* `takesAll_append_iff` — members are taken piece by piece;
* `takesAll_iff` — the fields at the end, field by field.
-/

namespace SplitHello.Policy

open Json (Content)

variable {fields next last : Partial} {field other : PolicyField} {name : String}
variable {member : String × Content} {members front back : List (String × Content)}

/-! ## Fields and their names -/

theorem ofName?_eq_some_iff : PolicyField.ofName? name = some field ↔ field.name = name := by
  constructor
  · intro h
    simpa using List.find?_some h
  · rintro rfl
    exact PolicyField.ofName?_name field

theorem ofName?_eq_none_iff :
    PolicyField.ofName? name = none ↔ ∀ field : PolicyField, name ≠ field.name := by
  constructor
  · rintro h field rfl
    simp at h
  · intro h
    cases hname : PolicyField.ofName? name with
    | none => rfl
    | some field => exact absurd (ofName?_eq_some_iff.mp hname).symm (h field)

/-- Fields with one name are one field. -/
theorem name_inj : field.name = other.name ↔ field = other := by
  rw [← ofName?_eq_some_iff, PolicyField.ofName?_name, Option.some.injEq, eq_comm]

@[simp] theorem Partial.put_self (iv : Interval) : fields.put field iv field = some iv :=
  if_pos rfl

theorem Partial.put_of_ne (iv : Interval) (h : other ≠ field) :
    fields.put field iv other = fields other :=
  if_neg h

/-- Fields that are not known stay so if another one gets known. -/
theorem Partial.put_eq_none {fs : List PolicyField} (iv : Interval) (hfield : field ∉ fs)
    (hfields : ∀ other ∈ fs, fields other = none) :
    ∀ other ∈ fs, fields.put field iv other = none := by
  intro other hother
  rw [put_of_ne iv (by rintro rfl; exact hfield hother), hfields other hother]

/-! ## Members in turn -/

/-- How one member changes the fields that are known: under a field's name it holds a text that is
an interval's, if the field is not known yet, and under any other name nothing changes. -/
inductive Partial.Takes (fields : Partial) : String × Content → Partial → Prop
  | unknown {key : String} {content : Content} :
      PolicyField.ofName? key = none → Takes fields (key, content) fields
  | known {field : PolicyField} {text : String} {iv : Interval} :
      fields field = none → Interval.ofText text = .ok iv →
        Takes fields (field.name, .text text) (fields.put field iv)

/-- How members in turn change the fields that are known. -/
inductive Partial.TakesAll : Partial → List (String × Content) → Partial → Prop
  | nil {fields : Partial} : TakesAll fields [] fields
  | cons {fields next last : Partial} {member : String × Content}
      {members : List (String × Content)} :
      fields.Takes member next → TakesAll next members last →
        TakesAll fields (member :: members) last

theorem takes_of_unknown (h : PolicyField.ofName? member.1 = none) :
    fields.Takes member next ↔ next = fields := by
  constructor
  · rintro (_ | _)
    · rfl
    · simp at h
  · rintro rfl
    exact .unknown h

/-- A member under the name of a field tells of that field. -/
theorem takes_of_known {content : Content} : fields.Takes (field.name, content) next ↔
    fields field = none ∧ ∃ text iv, content = .text text ∧ Interval.ofText text = .ok iv ∧
      next = fields.put field iv := by
  constructor
  · intro h
    generalize hmember : (field.name, content) = member at h
    cases h with
    | unknown h =>
        obtain ⟨rfl, -⟩ := Prod.mk.inj hmember
        simp at h
    | known hnone hiv =>
        obtain ⟨hname, rfl⟩ := Prod.mk.inj hmember
        obtain rfl := name_inj.mp hname
        exact ⟨hnone, _, _, rfl, hiv, rfl⟩
  · rintro ⟨hnone, _, _, rfl, hiv, rfl⟩
    exact .known hnone hiv

theorem takesAll_cons_iff : fields.TakesAll (member :: members) last ↔
    ∃ next, fields.Takes member next ∧ next.TakesAll members last := by
  constructor
  · rintro (_ | ⟨hmember, h⟩)
    exact ⟨_, hmember, h⟩
  · rintro ⟨next, hmember, h⟩
    exact .cons hmember h

theorem takesAll_append_iff : fields.TakesAll (front ++ back) last ↔
    ∃ next, fields.TakesAll front next ∧ next.TakesAll back last := by
  induction front generalizing fields with
  | nil =>
      refine ⟨fun h => ⟨fields, .nil, h⟩, ?_⟩
      rintro ⟨_, ⟨⟩, h⟩
      exact h
  | cons member front ih =>
      simp only [List.cons_append, takesAll_cons_iff, ih]
      grind

theorem takesAll_singleton_iff : fields.TakesAll [member] last ↔ fields.Takes member last := by
  rw [takesAll_cons_iff]
  constructor
  · rintro ⟨next, hmember, ⟨⟩⟩
    exact hmember
  · exact fun h => ⟨last, h, .nil⟩

/-! ## Field by field -/

/-- The members under the name of a field. -/
def membersOf (members : List (String × Content)) (field : PolicyField) :
    List (String × Content) :=
  members.filter fun member => member.1 = field.name

/-- What the members of a field make of it: there is none and it stays what it was, or there is one
and it was not known. -/
inductive Tells (field : PolicyField) :
    List (String × Content) → Option Interval → Option Interval → Prop
  | nothing {known : Option Interval} : Tells field [] known known
  | once {text : String} {iv : Interval} : Interval.ofText text = .ok iv →
      Tells field [(field.name, .text text)] none (some iv)

theorem membersOf_cons_self {content : Content} :
    membersOf ((field.name, content) :: members) field =
      (field.name, content) :: membersOf members field :=
  List.filter_cons_of_pos (decide_eq_true rfl)

theorem membersOf_cons_of_ne (h : member.1 ≠ field.name) :
    membersOf (member :: members) field = membersOf members field :=
  List.filter_cons_of_neg (by simpa using h)

theorem tells_nil_iff {before after : Option Interval} :
    Tells field [] before after ↔ after = before := by
  constructor
  · rintro ⟨⟩
    rfl
  · rintro rfl
    exact .nothing

/-- A member tells of a field only if it is the only one. -/
theorem tells_cons_iff {before after : Option Interval} :
    Tells field (member :: members) before after ↔ members = [] ∧ before = none ∧
      ∃ text iv, member = (field.name, .text text) ∧ Interval.ofText text = .ok iv ∧
        after = some iv := by
  constructor
  · rintro (_ | h)
    exact ⟨rfl, rfl, _, _, rfl, h, rfl⟩
  · rintro ⟨rfl, rfl, _, _, rfl, h, rfl⟩
    exact .once h

/-- Nothing is told of a field that is known. -/
theorem tells_some_iff {iv : Interval} {after : Option Interval} :
    Tells field members (some iv) after ↔ members = [] ∧ after = some iv := by
  constructor
  · rintro ⟨⟩
    exact ⟨rfl, rfl⟩
  · rintro ⟨rfl, rfl⟩
    exact .nothing

/-- A field that is not known stays so if nothing is told of it. -/
theorem tells_none_none_iff : Tells field members none none ↔ members = [] := by
  constructor
  · rintro ⟨⟩
    rfl
  · rintro rfl
    exact .nothing

/-- A field gets known by a text of its interval. -/
theorem tells_none_some_iff {iv : Interval} : Tells field members none (some iv) ↔
    ∃ text, members = [(field.name, .text text)] ∧ Interval.ofText text = .ok iv := by
  constructor
  · rintro (_ | h)
    exact ⟨_, rfl, h⟩
  · rintro ⟨_, rfl, h⟩
    exact .once h

/-- A field that is not known is told of by no member, or by one with the text of an interval. -/
theorem exists_tells_none_iff : (∃ after, Tells field members none after) ↔
    members = [] ∨ ∃ text iv, members = [(field.name, .text text)] ∧
      Interval.ofText text = .ok iv := by
  simp only [Option.exists, tells_none_none_iff, tells_none_some_iff]
  rw [exists_comm]

/-- What is told of all fields is told of one and of the others. -/
theorem forall_field_iff {p : PolicyField → Prop} (field : PolicyField) :
    (∀ other, p other) ↔ p field ∧ ∀ other, other ≠ field → p other := by
  refine ⟨fun h => ⟨h field, fun other _ => h other⟩, fun h other => ?_⟩
  by_cases hother : other = field
  · exact hother ▸ h.1
  · exact h.2 other hother

/-- A member more under a field's name: the field was not known, and is told of by that one only. -/
theorem tells_cons_known_iff {content : Content} :
    (∀ other, Tells other (membersOf ((field.name, content) :: members) other) (fields other)
        (last other)) ↔
      fields field = none ∧ ∃ text iv, content = .text text ∧ Interval.ofText text = .ok iv ∧
        ∀ other,
          Tells other (membersOf members other) (fields.put field iv other) (last other) := by
  have hput (iv : Interval) :
      (∀ other, Tells other (membersOf members other) (fields.put field iv other) (last other)) ↔
        (membersOf members field = [] ∧ last field = some iv) ∧ ∀ other, other ≠ field →
          Tells other (membersOf members other) (fields other) (last other) := by
    rw [forall_field_iff field, Partial.put_self, tells_some_iff]
    exact and_congr_right fun _ => forall₂_congr fun other h => by rw [Partial.put_of_ne iv h]
  rw [forall_field_iff field, membersOf_cons_self, tells_cons_iff]
  have hothers : (∀ other, other ≠ field → Tells other
        (membersOf ((field.name, content) :: members) other) (fields other) (last other)) ↔
      ∀ other, other ≠ field → Tells other (membersOf members other) (fields other) (last other) :=
    forall₂_congr fun other h => by
      rw [membersOf_cons_of_ne fun hname => h (name_inj.mp hname).symm]
  simp only [hput, hothers, Prod.mk.injEq, true_and]
  grind

/-- **Members in turn make of a field what its own members tell.** -/
theorem takesAll_iff : fields.TakesAll members last ↔
    ∀ field, Tells field (membersOf members field) (fields field) (last field) := by
  induction members generalizing fields with
  | nil =>
      constructor
      · rintro ⟨⟩ field
        exact .nothing
      · intro h
        obtain rfl : last = fields := funext fun field => tells_nil_iff.mp (h field)
        exact .nil
  | cons member members ih =>
      rw [takesAll_cons_iff]
      cases hname : PolicyField.ofName? member.1 with
      | none =>
          have hmembers : ∀ field, membersOf (member :: members) field = membersOf members field :=
            fun field => membersOf_cons_of_ne (ofName?_eq_none_iff.mp hname field)
          simp only [hmembers, ← ih, takes_of_unknown hname, exists_eq_left]
      | some field =>
          obtain ⟨key, content⟩ := member
          obtain rfl := ofName?_eq_some_iff.mp hname
          simp only [takes_of_known, ih, tells_cons_known_iff]
          constructor
          · rintro ⟨_, ⟨hnone, text, iv, htext, hiv, rfl⟩, h⟩
            exact ⟨hnone, text, iv, htext, hiv, h⟩
          · rintro ⟨hnone, text, iv, htext, hiv, h⟩
            exact ⟨_, ⟨hnone, text, iv, htext, hiv, rfl⟩, h⟩

end SplitHello.Policy
