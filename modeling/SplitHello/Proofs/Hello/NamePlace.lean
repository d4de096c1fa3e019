import SplitHello.Proofs.Hello.Parse

/-!
# Proofs/Hello/NamePlace — where the host name of a hello stands in its message

The host name of a hello is that of the last server name extension, and there the first of the
entries that count.  So the bytes ahead of it are those of the message's head, of the extensions
ahead of that one, of its own head, and of the entries ahead of the name.

* `ServerName.hostName_eq_some_iff` — a host name is read off a body exactly if it stands in it;
* `Extension.exists_latest_serverName` — the last server name extension decides;
* `HostNameAt` — at which place of a message its host name stands;
* `ClientHello.exists_hostNameAt_of_parse` — a hello that names a host was parsed off a message in
  which the name stands at some place.
-/

namespace SplitHello

open HelloMessage (counted)

/-! ## In the body of an extension -/

namespace ServerName

/-- In a list of which the first `count` entries count, `ahead` stands ahead of the first host
name. -/
inductive NameBehind (name : Bytes) : (count : Nat) → (list ahead : Bytes) → Prop
  /-- The first entry is the host name. -/
  | hostName {count : Nat} (hfits : name.length < 65536) (rest : Bytes) :
      NameBehind name (count + 1) (hostNameType :: counted 2 name ++ rest)
        (hostNameType :: Bytes.ofNat 2 name.length)
  /-- The first entry is something else, and the host name is behind it. -/
  | other {count : Nat} {type : UInt8} {other list ahead : Bytes} (htype : type ≠ hostNameType)
      (hfits : other.length < 65536) (later : NameBehind name count list ahead) :
      NameBehind name (count + 1) (type :: counted 2 other ++ list)
        (type :: counted 2 other ++ ahead)

/-- In the body of a server name extension, `ahead` stands ahead of its host name. -/
def Names (body ahead name : Bytes) : Prop :=
  ∃ (count : UInt16) (list entries : Bytes), body = Bytes.ofNat 2 count.toNat ++ list ∧
    NameBehind name count.toNat list entries ∧ ahead = Bytes.ofNat 2 count.toNat ++ entries

variable {count : Nat} {body list ahead name : Bytes}

theorem NameBehind.exists_append (h : NameBehind name count list ahead) :
    ∃ behind, list = ahead ++ name ++ behind := by
  induction h with
  | hostName _ rest => exact ⟨rest, rfl⟩
  | @other _ type other _ ahead _ _ _ ih =>
      obtain ⟨behind, rfl⟩ := ih
      refine ⟨behind, ?_⟩
      rw [List.append_assoc (type :: counted 2 other), List.append_assoc (type :: counted 2 other)]

theorem NameBehind.lists (h : NameBehind name count list ahead) : Lists count list (some name) := by
  induction h with
  | hostName hfits rest => exact .hostName hfits rest
  | other htype hfits _ ih => exact .other htype hfits ih

/-- A list that says a host name holds it. -/
theorem exists_nameBehind_of_lists {said : Option Bytes} (h : Lists count list said)
    (hsaid : said = some name) : ∃ ahead, NameBehind name count list ahead := by
  induction h with
  | nothing => cases hsaid
  | hostName hfits rest =>
      obtain rfl := Option.some.inj hsaid
      exact ⟨_, .hostName hfits rest⟩
  | other htype hfits _ ih =>
      obtain ⟨ahead, hbehind⟩ := ih hsaid
      exact ⟨_, .other htype hfits hbehind⟩

/-- **A host name is read off a body exactly if it stands in it**, behind something. -/
theorem hostName_eq_some_iff :
    hostName body = .ok (some name) ↔ ∃ ahead, Names body ahead name := by
  rw [hostName_eq_ok_iff]
  constructor
  · rintro ⟨count, list, hbody, hlists⟩
    obtain ⟨entries, hbehind⟩ := exists_nameBehind_of_lists hlists rfl
    exact ⟨_, count, list, entries, hbody, hbehind, rfl⟩
  · rintro ⟨_, count, list, entries, hbody, hbehind, rfl⟩
    exact ⟨count, list, hbody, hbehind.lists⟩

theorem Names.exists_append (h : Names body ahead name) :
    ∃ behind, body = ahead ++ name ++ behind := by
  obtain ⟨count, list, entries, rfl, hbehind, rfl⟩ := h
  obtain ⟨behind, rfl⟩ := hbehind.exists_append
  exact ⟨behind, by simp only [List.append_assoc]⟩

end ServerName

/-! ## The last server name extension -/

namespace Extension

open ExtensionValue (latest)

/-- The bytes of an entry ahead of its body. -/
def head (x : Extension) : Bytes := Bytes.ofNat 2 x.code.toNat ++ Bytes.ofNat 2 x.body.length

theorem encode_eq (x : Extension) : x.encode = x.head ++ x.body := rfl

/-- An entry says a server name exactly if it has the code of one. -/
theorem Says.exists_serverName {x : Extension} {said : Option ExtensionValue} (h : x.Says said)
    (hcode : x.code = ExtensionType.serverName.code) :
    ∃ name, said = some (.serverName name) := by
  cases h with
  | unknown h => exact absurd hcode (h .serverName)
  | @known type body value h =>
      have htype : some type = some .serverName := by
        rw [← ExtensionType.ofCode?_code type, ← ExtensionType.ofCode?_code .serverName]
        exact congrArg ExtensionType.ofCode? hcode
      obtain rfl := Option.some.inj htype
      cases h with
      | serverName => exact ⟨_, rfl⟩

/-- An entry that says a host name holds it. -/
theorem Says.exists_names {x : Extension} {name : Bytes}
    (h : x.Says (some (.serverName (some name)))) :
    x.code = ExtensionType.serverName.code ∧ ∃ ahead, ServerName.Names x.body ahead name := by
  cases h with
  | known h =>
      cases h with
      | serverName hlists =>
          obtain ⟨entries, hbehind⟩ := ServerName.exists_nameBehind_of_lists hlists rfl
          exact ⟨rfl, _, _, _, entries, rfl, hbehind, rfl⟩

theorem latest_append {α : Type} (what : ExtensionValue → Option α)
    (first second : List ExtensionValue) :
    latest what (first ++ second) = (latest what second).or (latest what first) := by
  rw [latest, latest, latest, List.filterMap_append, List.getLast?_append]

/-- Where no entry says a server name, none has the code of one. -/
theorem code_ne_of_latest_eq_none {entries : List Extension}
    {said : List (Option ExtensionValue)} (h : List.Forall₂ Says entries said)
    (hnone : latest ExtensionValue.serverName? (said.flatMap Option.toList) = none) :
    ∀ x ∈ entries, x.code ≠ ExtensionType.serverName.code := by
  induction h with
  | nil => exact fun x hx => absurd hx List.not_mem_nil
  | @cons x first entries said hfirst _ ih =>
      rw [List.flatMap_cons, latest_append, Option.or_eq_none_iff] at hnone
      refine List.forall_mem_cons.mpr ⟨fun hcode => ?_, ih hnone.1⟩
      obtain ⟨name, rfl⟩ := hfirst.exists_serverName hcode
      cases hnone.2

/-- An entry that gives a server name says it. -/
theorem eq_of_latest_toList {first : Option ExtensionValue} {name : Option Bytes}
    (h : latest ExtensionValue.serverName? first.toList = some name) :
    first = some (.serverName name) := by
  obtain _ | value := first
  · cases h
  · cases value with
    | serverName found =>
        obtain rfl : found = name := Option.some.inj h
        rfl
    | _ => cases h

/-- **The last server name extension decides.** -/
theorem exists_latest_serverName {entries : List Extension} {said : List (Option ExtensionValue)}
    {name : Option Bytes} (h : List.Forall₂ Says entries said)
    (hlatest : latest ExtensionValue.serverName? (said.flatMap Option.toList) = some name) :
    ∃ earlier x later, entries = earlier ++ x :: later ∧ x.Says (some (.serverName name)) ∧
      ∀ y ∈ later, y.code ≠ ExtensionType.serverName.code := by
  induction h with
  | nil => cases hlatest
  | @cons x first entries said hfirst hrest ih =>
      rw [List.flatMap_cons, latest_append] at hlatest
      cases hmore : latest ExtensionValue.serverName? (said.flatMap Option.toList) with
      | some found =>
          rw [hmore, Option.some_or] at hlatest
          obtain ⟨earlier, y, later, rfl, hsays, hlater⟩ := ih (hmore.trans hlatest)
          exact ⟨x :: earlier, y, later, rfl, hsays, hlater⟩
      | none =>
          -- nothing behind the first entry says a server name, so the first does
          rw [hmore, Option.none_or] at hlatest
          obtain rfl := eq_of_latest_toList hlatest
          exact ⟨[], x, entries, rfl, hfirst, code_ne_of_latest_eq_none hrest hmore⟩

end Extension

/-! ## In a message -/

namespace HelloMessage

/-- The bytes of a message with these extensions ahead of the first of them. -/
def head (message : HelloMessage) (list : List Extension) : Bytes :=
  ClientHello.messageType :: Bytes.ofNat 3 message.body.length ++ message.fields ++
    Bytes.ofNat 2 (list.flatMap Extension.encode).length

theorem encode_eq_head {message : HelloMessage} {list : List Extension}
    (h : message.extensions = some list) :
    message.encode = message.head list ++ list.flatMap Extension.encode := by
  rw [encode, counted, head, message.body_eq, h, encodeExtensions, counted]
  simp only [List.cons_append, List.append_assoc]

/-- In a message, `front` stands ahead of the host name of its last server name extension. -/
def NamesHost (message : HelloMessage) (front name : Bytes) : Prop :=
  ∃ (earlier later : List Extension) (x : Extension) (ahead : Bytes),
    message.extensions = some (earlier ++ x :: later) ∧
    x.code = ExtensionType.serverName.code ∧
    (∀ y ∈ later, y.code ≠ ExtensionType.serverName.code) ∧
    ServerName.Names x.body ahead name ∧
    front = message.head (earlier ++ x :: later) ++ earlier.flatMap Extension.encode ++
      x.head ++ ahead

theorem NamesHost.exists_append {message : HelloMessage} {front name : Bytes}
    (h : message.NamesHost front name) : ∃ behind, message.encode = front ++ name ++ behind := by
  obtain ⟨earlier, later, x, ahead, hextensions, -, -, hnames, rfl⟩ := h
  obtain ⟨behind, hbody⟩ := hnames.exists_append
  refine ⟨behind ++ later.flatMap Extension.encode, ?_⟩
  rw [encode_eq_head hextensions, List.flatMap_append, List.flatMap_cons, x.encode_eq, hbody]
  simp only [List.append_assoc]

end HelloMessage

/-- At place `k` of a message's bytes stands the host name of its last server name extension. -/
def HostNameAt (raw : Bytes) (k : Nat) (name : Bytes) : Prop :=
  ∃ (message : HelloMessage) (front : Bytes), message.Bounded ∧ message.encode = raw ∧
    message.NamesHost front name ∧ front.length = k

theorem HostNameAt.exists_append {raw name : Bytes} {k : Nat} (h : HostNameAt raw k name) :
    ∃ front behind, raw = front ++ name ++ behind ∧ front.length = k := by
  obtain ⟨message, front, -, rfl, hnames, hlength⟩ := h
  obtain ⟨behind, hraw⟩ := hnames.exists_append
  exact ⟨front, behind, hraw, hlength⟩

namespace ClientHello

variable {data name : Bytes} {hello : ClientHello}

/-- The message that a hello was parsed off is at the front. -/
theorem raw_prefix_of_parse (h : parse data = .ok hello) : hello.raw <+: data := by
  obtain ⟨message, said, rest, -, -, rfl, rfl⟩ := exists_message_of_parse h
  exact List.prefix_append _ _

/-- **A hello that names a host was parsed off a message in which the name stands at some
place.** -/
theorem exists_hostNameAt_of_parse (h : parse data = .ok hello) (hname : hello.sni = some name) :
    ∃ k, HostNameAt hello.raw k name := by
  obtain ⟨message, said, rest, hbounded, hsaid, -, rfl⟩ := exists_message_of_parse h
  have hlatest : ExtensionValue.latest ExtensionValue.serverName?
      (said.flatMap Option.toList) = some (some name) :=
    (Option.getD_eq_iff.mp hname).resolve_right fun h => by cases h.2
  obtain ⟨earlier, x, later, hentries, hsays, hlater⟩ :=
    Extension.exists_latest_serverName hsaid hlatest
  obtain ⟨hcode, ahead, hnames⟩ := hsays.exists_names
  have hextensions : message.extensions = some (earlier ++ x :: later) :=
    (Option.getD_eq_iff.mp hentries).resolve_right fun h =>
      List.append_ne_nil_of_right_ne_nil _ (List.cons_ne_nil _ _) h.2.symm
  exact ⟨_, message, _, hbounded, rfl,
    ⟨earlier, later, x, ahead, hextensions, hcode, hlater, hnames, rfl⟩, rfl⟩

end ClientHello

end SplitHello
