import SplitHello.Proofs.Cursor

/-!
# Proofs/Hello/ServerName — what a list of server names says

`Lists` is the grammar of the lists, with no reading in sight: entries of other types are passed
over, and the first host name among as many entries as are counted is what the list says.

* `entry_eq_ok_iff` — an entry is read exactly if one is written there;
* `hostName_eq_ok_iff` — a host name, or none, is read off a body exactly if the body says so.
-/

namespace SplitHello.ServerName

open HelloMessage (counted)

/-- What a list says of which the first `count` entries count.  What is behind the first host name,
or behind those entries, does not matter. -/
inductive Lists : (count : Nat) → Bytes → Option Bytes → Prop
  /-- No entry counts. -/
  | nothing (rest : Bytes) : Lists 0 rest none
  /-- The first entry is a host name. -/
  | hostName {count : Nat} {name : Bytes} (hfits : name.length < 65536) (rest : Bytes) :
      Lists (count + 1) (hostNameType :: counted 2 name ++ rest) (some name)
  /-- The first entry is something else, and those behind it say. -/
  | other {count : Nat} {type : UInt8} {name rest : Bytes} {said : Option Bytes}
      (htype : type ≠ hostNameType) (hfits : name.length < 65536)
      (later : Lists count rest said) : Lists (count + 1) (type :: counted 2 name ++ rest) said

/-- **An entry is read exactly if one is written there.** -/
theorem entry_eq_ok_iff {c c' : Cursor} {type : UInt8} {name : Bytes} :
    entry c = .ok ((type, name), c') ↔
      name.length < 65536 ∧ c.Reaches (type :: counted 2 name) c' := by
  rw [Cursor.reaches_cons_iff]
  simp only [entry, bind_eq_ok_iff, Prod.exists, Cursor.u8_eq_ok_iff, Cursor.u16_eq_ok_iff,
    Cursor.take_eq_ok_iff_reaches, pure, Except.pure, Except.ok.injEq, Prod.mk.injEq]
  constructor
  · rintro ⟨_, m, htype, n, m', hn, _, _, ⟨hlength, hname⟩, ⟨rfl, rfl⟩, rfl⟩
    obtain ⟨hfits, hcounted⟩ := Cursor.exists_u16_iff_counted.mp ⟨n, m', hn, hlength, hname⟩
    exact ⟨hfits, m, htype, hcounted⟩
  · rintro ⟨hfits, m, htype, hcounted⟩
    obtain ⟨n, m', hn, hlength, hname⟩ := Cursor.exists_u16_iff_counted.mpr ⟨hfits, hcounted⟩
    exact ⟨type, m, htype, n, m', hn, name, c', ⟨hlength, hname⟩, ⟨rfl, rfl⟩, rfl⟩

/-- An entry that is written ahead of other bytes is read. -/
theorem exists_entry {c : Cursor} {type : UInt8} {name rest : Bytes} (hfits : name.length < 65536)
    (hrest : c.rest = type :: counted 2 name ++ rest) :
    ∃ m, entry c = .ok ((type, name), m) ∧ m.rest = rest :=
  ⟨⟨_, rest⟩, entry_eq_ok_iff.mpr ⟨hfits, hrest, rfl⟩, rfl⟩

/-- The first host name that is found is what the list says. -/
theorem lists_of_firstHostName {count : Nat} {c : Cursor} {said : Option Bytes}
    (h : firstHostName count c = .ok said) : Lists count c.rest said := by
  induction count generalizing c with
  | zero =>
      obtain rfl := Except.ok.inj h
      exact .nothing c.rest
  | succ count ih =>
      rw [firstHostName] at h
      obtain ⟨⟨⟨type, name⟩, m⟩, hentry, hlater⟩ := bind_eq_ok_iff.mp h
      obtain ⟨hfits, hrest, -⟩ := entry_eq_ok_iff.mp hentry
      rw [hrest]
      dsimp only at hlater
      split at hlater
      · next htype =>
        obtain rfl := Except.ok.inj hlater
        rw [htype]
        exact .hostName hfits m.rest
      · next htype => exact .other htype hfits (ih hlater)

/-- What the list says is found. -/
theorem firstHostName_of_lists {count : Nat} {list : Bytes} {said : Option Bytes}
    (h : Lists count list said) {c : Cursor} (hrest : c.rest = list) :
    firstHostName count c = .ok said := by
  induction h generalizing c with
  | nothing => rfl
  | hostName hfits rest =>
      obtain ⟨m, hentry, -⟩ := exists_entry hfits hrest
      rw [firstHostName]
      exact bind_eq_ok_iff.mpr ⟨_, hentry, if_pos rfl⟩
  | other htype hfits _ ih =>
      obtain ⟨m, hentry, hm⟩ := exists_entry hfits hrest
      rw [firstHostName]
      exact bind_eq_ok_iff.mpr ⟨_, hentry, (if_neg htype).trans (ih hm)⟩

/-- The first host name is found exactly if the list says so. -/
theorem firstHostName_eq_ok_iff {count : Nat} {c : Cursor} {said : Option Bytes} :
    firstHostName count c = .ok said ↔ Lists count c.rest said :=
  ⟨lists_of_firstHostName, fun h => firstHostName_of_lists h rfl⟩

/-- **A host name, or none, is read off a body exactly if the body says so.** -/
theorem hostName_eq_ok_iff {body : Bytes} {said : Option Bytes} :
    hostName body = .ok said ↔ ∃ (count : UInt16) (list : Bytes),
      body = Bytes.ofNat 2 count.toNat ++ list ∧ Lists count.toNat list said := by
  simp only [hostName, bind_eq_ok_iff, Prod.exists, Cursor.u16_eq_ok_iff, firstHostName_eq_ok_iff]
  constructor
  · rintro ⟨count, m, ⟨hrest, -⟩, h⟩
    exact ⟨count, m.rest, hrest, h⟩
  · rintro ⟨count, list, hbody, h⟩
    exact ⟨count, ⟨_, list⟩, ⟨hbody, rfl⟩, h⟩

end SplitHello.ServerName
