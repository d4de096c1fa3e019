import Mathlib.Data.List.Forall2
import Mathlib.Data.List.Induction
import SplitHello.Proofs.Hello.ServerName

/-!
# Proofs/Hello/Extension — what the extensions of a hello say, and what comes of it

`ExtensionType.Says` is the grammar of the bodies of the six types, and `Extension.Says` that of the
entries: an entry of any other type says nothing, whatever its body.  `saying` is the hello that
comes of what a row of extensions says, field by field.

* `Extension.decode_eq_ok_iff` — an entry is decoded exactly to what it says;
* `foldl_set` — taking values in one by one leaves the hello that says them;
* `foldlM_apply_eq_ok_iff` — entries are taken in exactly if each of them is well-formed.
-/

namespace SplitHello

open HelloMessage (counted)

/-! ## Bodies -/

/-- What the bodies of a type's extensions say. -/
inductive ExtensionType.Says : ExtensionType → Bytes → ExtensionValue → Prop
  /-- A count of entries and a list of server names. -/
  | serverName {count : UInt16} {list : Bytes} {name : Option Bytes}
      (h : ServerName.Lists count.toNat list name) :
      Says .serverName (Bytes.ofNat 2 count.toNat ++ list) (.serverName name)
  /-- The kind of status, and anything behind it. -/
  | statusRequest (status : UInt8) (rest : Bytes) :
      Says .statusRequest (status :: rest) (.statusRequest (status == ocspStatus))
  /-- Counted curves. -/
  | supportedCurves {curves : List UInt16} (hfits : (Bytes.ofCodes curves).length < 65536) :
      Says .supportedCurves (counted 2 (Bytes.ofCodes curves)) (.supportedCurves curves)
  /-- Counted point formats. -/
  | supportedPoints {points : Bytes} (hfits : points.length < 256) :
      Says .supportedPoints (counted 1 points) (.supportedPoints points)
  /-- A ticket. -/
  | sessionTicket (ticket : Bytes) : Says .sessionTicket ticket (.sessionTicket ticket)
  /-- Nothing. -/
  | nextProtoNeg : Says .nextProtoNeg [] .nextProtoNeg

namespace ExtensionType

/-- The curves in a body are read exactly if the body is their count and they. -/
theorem decodeCurves_eq_ok_iff {body : Bytes} {curves : List UInt16} :
    decodeCurves body = .ok curves ↔
      (Bytes.ofCodes curves).length < 65536 ∧ body = counted 2 (Bytes.ofCodes curves) := by
  constructor
  · intro h
    obtain _ | ⟨high, _ | ⟨low, list⟩⟩ := body
    · cases h
    · cases h
    · simp only [decodeCurves] at h
      split at h
      · cases h
      · next hlength =>
        obtain ⟨heven, hlength⟩ := not_or.mp hlength
        rw [Classical.not_not] at heven hlength
        obtain rfl := Except.ok.inj h
        have hlist : Bytes.ofCodes (Bytes.codes list) = list :=
          Bytes.ofCodes_codes list (hlength ▸ heven)
        have hcount : Bytes.ofNat 2 list.length = [high, low] := by
          rw [hlength]
          exact Bytes.ofNat_toNat [high, low]
        have hlt : Bytes.toNat [high, low] < Bytes.capacity 2 := Bytes.toNat_lt [high, low]
        rw [hlist, counted, hcount, hlength]
        exact ⟨hlt, rfl⟩
  · rintro ⟨hfits, rfl⟩
    have hcount : Bytes.toNat (Bytes.ofNat 2 (Bytes.ofCodes curves).length) =
        (Bytes.ofCodes curves).length := Bytes.toNat_ofNat_of_lt hfits
    have heven : (Bytes.ofCodes curves).length % 2 = 0 := by
      rw [Bytes.length_ofCodes, Nat.mul_mod_right]
    simp only [Bytes.ofNat, List.nil_append, List.cons_append] at hcount
    simp only [counted, Bytes.ofNat, List.nil_append, List.cons_append, decodeCurves, hcount,
      heven, ne_eq, not_true, or_self, if_false, Bytes.codes_ofCodes]

/-- The server name in a body is read exactly if the body is a count and a list that says it. -/
theorem decode_serverName_eq_ok_iff {body : Bytes} {value : ExtensionValue} :
    decode .serverName body = .ok value ↔ ∃ (count : UInt16) (list : Bytes) (name : Option Bytes),
      body = Bytes.ofNat 2 count.toNat ++ list ∧ ServerName.Lists count.toNat list name ∧
        value = .serverName name := by
  rw [decode]
  constructor
  · intro h
    split at h
    · next name hname =>
      obtain ⟨count, list, hbody, hlists⟩ := ServerName.hostName_eq_ok_iff.mp hname
      exact ⟨count, list, name, hbody, hlists, (Except.ok.inj h).symm⟩
    · cases h
  · rintro ⟨count, list, name, hbody, hlists, rfl⟩
    rw [ServerName.hostName_eq_ok_iff.mpr ⟨count, list, hbody, hlists⟩]

/-- The point formats in a body are read exactly if the body is their count and they. -/
theorem decode_supportedPoints_eq_ok_iff {body : Bytes} {value : ExtensionValue} :
    decode .supportedPoints body = .ok value ↔ ∃ points : Bytes,
      points.length < 256 ∧ body = counted 1 points ∧ value = .supportedPoints points := by
  -- the byte that counts the points is read as their length
  have hcounted : ∀ {length : UInt8} {points : Bytes}, points.length = length.toNat →
      length :: points = counted 1 points := by
    intro length points hlength
    rw [counted, Bytes.ofNat, Bytes.ofNat, hlength, UInt8.ofNat_toNat]
    rfl
  constructor
  · intro h
    obtain _ | ⟨length, points⟩ := body
    · cases h
    · rw [decode] at h
      split at h
      · cases h
      · next hlength =>
        rw [ne_eq, Classical.not_not] at hlength
        exact ⟨points, hlength ▸ length.toNat_lt, hcounted hlength, (Except.ok.inj h).symm⟩
  · rintro ⟨points, hfits, rfl, rfl⟩
    have hlength : points.length = (UInt8.ofNat points.length).toNat :=
      (UInt8.toNat_ofNat_of_lt' hfits).symm
    rw [← hcounted hlength, decode, if_neg (not_not_intro hlength)]

theorem says_of_decode {type : ExtensionType} {body : Bytes} {value : ExtensionValue}
    (h : type.decode body = .ok value) : type.Says body value := by
  cases type with
  | serverName =>
      obtain ⟨count, list, name, rfl, hlists, rfl⟩ := decode_serverName_eq_ok_iff.mp h
      exact .serverName hlists
  | statusRequest =>
      obtain _ | ⟨status, rest⟩ := body
      · cases h
      · obtain rfl := Except.ok.inj h
        exact .statusRequest status rest
  | supportedCurves =>
      obtain ⟨curves, hcurves, rfl⟩ := map_eq_ok_iff.mp h
      obtain ⟨hfits, rfl⟩ := decodeCurves_eq_ok_iff.mp hcurves
      exact .supportedCurves hfits
  | supportedPoints =>
      obtain ⟨points, hfits, rfl, rfl⟩ := decode_supportedPoints_eq_ok_iff.mp h
      exact .supportedPoints hfits
  | sessionTicket =>
      obtain rfl := Except.ok.inj h
      exact .sessionTicket body
  | nextProtoNeg =>
      obtain _ | ⟨first, rest⟩ := body
      · obtain rfl := Except.ok.inj h
        exact .nextProtoNeg
      · cases h

theorem decode_of_says {type : ExtensionType} {body : Bytes} {value : ExtensionValue}
    (h : type.Says body value) : type.decode body = .ok value := by
  cases h with
  | serverName hlists => exact decode_serverName_eq_ok_iff.mpr ⟨_, _, _, rfl, hlists, rfl⟩
  | supportedCurves hfits =>
      exact map_eq_ok_iff.mpr ⟨_, decodeCurves_eq_ok_iff.mpr ⟨hfits, rfl⟩, rfl⟩
  | supportedPoints hfits => exact decode_supportedPoints_eq_ok_iff.mpr ⟨_, hfits, rfl, rfl⟩
  | statusRequest | sessionTicket | nextProtoNeg => rfl

/-- **A body is decoded exactly if it says what it is decoded to.** -/
theorem decode_eq_ok_iff {type : ExtensionType} {body : Bytes} {value : ExtensionValue} :
    type.decode body = .ok value ↔ type.Says body value :=
  ⟨says_of_decode, decode_of_says⟩

end ExtensionType

/-! ## Entries -/

/-- What an entry says: nothing if its code is that of no type. -/
inductive Extension.Says : Extension → Option ExtensionValue → Prop
  /-- The code is that of no type. -/
  | unknown {x : Extension} (h : ∀ type : ExtensionType, x.code ≠ type.code) : x.Says none
  /-- The code is that of a type, and the body says something. -/
  | known {type : ExtensionType} {body : Bytes} {value : ExtensionValue}
      (h : type.Says body value) : Extension.Says ⟨type.code, body⟩ (some value)

/-- **An entry is decoded exactly if it says what it is decoded to.** -/
theorem Extension.decode_eq_ok_iff {x : Extension} {said : Option ExtensionValue} :
    x.decode = .ok said ↔ x.Says said := by
  constructor
  · intro h
    rw [decode] at h
    split at h
    · next hcode =>
      obtain rfl := Except.ok.inj h
      refine .unknown fun type htype => ?_
      rw [ExtensionType.ofCode?_eq_some_iff.mpr htype] at hcode
      cases hcode
    · next type hcode =>
      obtain ⟨value, hvalue, rfl⟩ := map_eq_ok_iff.mp h
      obtain ⟨code, body⟩ := x
      obtain rfl : code = type.code := ExtensionType.ofCode?_eq_some_iff.mp hcode
      exact .known (ExtensionType.decode_eq_ok_iff.mp hvalue)
  · intro h
    cases h with
    | unknown h =>
        have hcode : ExtensionType.ofCode? x.code = none :=
          Option.eq_none_iff_forall_ne_some.mpr fun type htype =>
            h type (ExtensionType.ofCode?_eq_some_iff.mp htype)
        simp only [decode, hcode]
    | known h =>
        simp only [decode, ExtensionType.ofCode?_code]
        exact map_eq_ok_iff.mpr ⟨_, ExtensionType.decode_eq_ok_iff.mpr h, rfl⟩

/-! ## The hello that says them -/

namespace ExtensionValue

/-- The host name, or none, that is said by a server name extension. -/
def serverName? : ExtensionValue → Option (Option Bytes)
  | serverName name => some name
  | _ => none

/-- The supported curves that are said. -/
def curves? : ExtensionValue → Option (List UInt16)
  | supportedCurves curves => some curves
  | _ => none

/-- The supported point formats that are said. -/
def points? : ExtensionValue → Option Bytes
  | supportedPoints points => some points
  | _ => none

/-- The session ticket that is said. -/
def ticket? : ExtensionValue → Option Bytes
  | sessionTicket ticket => some ticket
  | _ => none

/-- The latest of what some of the values say. -/
def latest {α : Type} (what : ExtensionValue → Option α) (values : List ExtensionValue) :
    Option α :=
  (values.filterMap what).getLast?

theorem latest_append_singleton {α : Type} (what : ExtensionValue → Option α)
    (values : List ExtensionValue) (value : ExtensionValue) :
    latest what (values ++ [value]) = (what value).or (latest what values) := by
  rw [latest, latest, List.filterMap_append]
  cases h : what value with
  | none => rw [List.filterMap_cons_none h, List.filterMap_nil, List.append_nil, Option.none_or]
  | some a =>
      rw [List.filterMap_cons_some h, List.filterMap_nil, List.getLast?_concat, Option.some_or]

end ExtensionValue

namespace ClientHello

open ExtensionValue (latest)

/-- The hello with what its extensions say, in this order.  Of each list the latest counts; one
request for OCSP, one ticket and one offer are enough. -/
def saying (hello : ClientHello) (values : List ExtensionValue) : ClientHello :=
  { hello with
    sni := (latest ExtensionValue.serverName? values).getD hello.sni
    ocspStapling := hello.ocspStapling || values.contains (.statusRequest true)
    supportedCurves := (latest ExtensionValue.curves? values).getD hello.supportedCurves
    supportedPoints := (latest ExtensionValue.points? values).getD hello.supportedPoints
    ticketSupported := hello.ticketSupported || (latest ExtensionValue.ticket? values).isSome
    sessionTicket := (latest ExtensionValue.ticket? values).getD hello.sessionTicket
    nextProtoNeg := hello.nextProtoNeg || values.contains .nextProtoNeg }

/-- **Taking values in one by one leaves the hello that says them.** -/
theorem foldl_set (hello : ClientHello) (values : List ExtensionValue) :
    values.foldl set hello = hello.saying values := by
  induction values using List.reverseRecOn with
  | nil => simp [saying, latest]
  | append_singleton earlier value ih =>
      rw [List.foldl_append, ih, List.foldl_cons, List.foldl_nil, saying, saying]
      -- the value decides its own fields and leaves the others as the earlier ones say
      cases value <;>
        simp [set, ExtensionValue.latest_append_singleton, ExtensionValue.serverName?,
          ExtensionValue.curves?, ExtensionValue.points?, ExtensionValue.ticket?, Bool.or_assoc]

/-- An entry is taken in exactly if it is well-formed, and then what it says is. -/
theorem apply_eq_ok_iff {hello h : ClientHello} {x : Extension} :
    hello.apply x = .ok h ↔ ∃ said, x.Says said ∧ h = said.toList.foldl set hello := by
  constructor
  · intro happly
    rw [apply] at happly
    split at happly
    · next hx =>
      exact ⟨none, Extension.decode_eq_ok_iff.mp hx, (Except.ok.inj happly).symm⟩
    · next value hx =>
      exact ⟨some value, Extension.decode_eq_ok_iff.mp hx, (Except.ok.inj happly).symm⟩
    · cases happly
  · rintro ⟨said, hsays, rfl⟩
    rw [apply, Extension.decode_eq_ok_iff.mpr hsays]
    cases said <;> rfl

/-- **Entries are taken in exactly if each of them is well-formed**, and the hello is then the one
that says what they say. -/
theorem foldlM_apply_eq_ok_iff {hello h : ClientHello} {entries : List Extension} :
    entries.foldlM apply hello = .ok h ↔
      ∃ said, List.Forall₂ Extension.Says entries said ∧
        h = hello.saying (said.flatMap Option.toList) := by
  simp only [← foldl_set]
  induction entries generalizing hello with
  | nil =>
      rw [List.foldlM_nil]
      constructor
      · intro hnil
        obtain rfl := Except.ok.inj hnil
        exact ⟨[], .nil, rfl⟩
      · rintro ⟨said, hsays, rfl⟩
        rw [List.forall₂_nil_left_iff.mp hsays]
        rfl
  | cons x later ih =>
      rw [List.foldlM_cons, bind_eq_ok_iff]
      constructor
      · rintro ⟨next, hfirst, hlater⟩
        obtain ⟨first, hsays, rfl⟩ := apply_eq_ok_iff.mp hfirst
        obtain ⟨said, hall, rfl⟩ := ih.mp hlater
        refine ⟨first :: said, .cons hsays hall, ?_⟩
        rw [List.flatMap_cons, List.foldl_append]
      · rintro ⟨said, hall, rfl⟩
        obtain ⟨first, said, hsays, hlater, rfl⟩ := List.forall₂_cons_left_iff.mp hall
        refine ⟨_, apply_eq_ok_iff.mpr ⟨first, hsays, rfl⟩, ih.mpr ⟨said, hlater, ?_⟩⟩
        rw [List.flatMap_cons, List.foldl_append]

end ClientHello

end SplitHello
