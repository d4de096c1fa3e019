import SplitHello.Proofs.Hello.Extension

/-!
# Proofs/Hello/Parse — parsing accepts exactly what is written

The bytes of a well-formed message are accepted, with anything behind them, and give the hello that
the message says; and what is accepted are the bytes of a well-formed message, with something behind
them.

* `Extension.entries_eq_iff`, `Extension.block_eq_ok_iff` — what the extension block is read as;
* `ClientHello.takeFields_eq_ok_iff` — what the fields ahead of it are read as;
* `ClientHello.splitMessage_eq_ok_iff` — which bytes a message is;
* `ClientHello.parse_eq_ok_iff` — the whole.
-/

namespace SplitHello

open HelloMessage (counted)

/-! ## Messages -/

namespace HelloMessage

/-- The bytes of a message's body ahead of its extension block. -/
def fields (message : HelloMessage) : Bytes :=
  Bytes.ofNat 2 message.version.toNat ++ message.random.val ++ counted 1 message.sessionId ++
    counted 2 (Bytes.ofCodes message.cipherSuites) ++ counted 1 message.compressionMethods

theorem body_eq (message : HelloMessage) :
    message.body = message.fields ++ encodeExtensions message.extensions := rfl

/-- Every length of a message fits the bytes that count it, and its session ID is no longer than it
may be. -/
structure Bounded (message : HelloMessage) : Prop where
  /-- The session ID is no longer than it may be. -/
  sessionId : message.sessionId.length ≤ ClientHello.maxSessionIdLength
  /-- The length of the cipher suites fits two bytes. -/
  cipherSuites : (Bytes.ofCodes message.cipherSuites).length < 65536
  /-- The length of the compression methods fits one byte. -/
  compressionMethods : message.compressionMethods.length < 256
  /-- The length of each extension's body fits two bytes. -/
  bodies : ∀ x ∈ message.extensions.getD [], x.body.length < 65536
  /-- The length of the extension block fits two bytes. -/
  block : ((message.extensions.getD []).flatMap Extension.encode).length < 65536

/-- The hello that a message says if its extensions say these values. -/
def hello (message : HelloMessage) (values : List ExtensionValue) : ClientHello :=
  { ClientHello.empty with
    raw := message.encode
    version := message.version
    random := message.random
    sessionId := message.sessionId
    cipherSuites := message.cipherSuites
    compressionMethods := message.compressionMethods }.saying values

end HelloMessage

/-! ## The extension block -/

namespace Extension

/-- **An entry is read exactly if one is written there.** -/
theorem take_eq_ok_iff {c c' : Cursor} {x : Extension} :
    take c = .ok (x, c') ↔ x.body.length < 65536 ∧ c.Reaches x.encode c' := by
  obtain ⟨code, body⟩ := x
  rw [encode, List.append_assoc, Cursor.reaches_append_iff]
  simp only [take, bind_eq_ok_iff, Prod.exists, Cursor.u16_eq_ok_iff,
    Cursor.take_eq_ok_iff_reaches, pure, Except.pure, Except.ok.injEq, Prod.mk.injEq, mk.injEq]
  constructor
  · rintro ⟨_, m, hcode, n, m', hn, _, _, ⟨hlength, hbody⟩, ⟨rfl, rfl⟩, rfl⟩
    obtain ⟨hfits, hcounted⟩ := Cursor.exists_u16_iff_counted.mp ⟨n, m', hn, hlength, hbody⟩
    exact ⟨hfits, m, hcode, hcounted⟩
  · rintro ⟨hfits, m, hcode, hcounted⟩
    obtain ⟨n, m', hn, hlength, hbody⟩ := Cursor.exists_u16_iff_counted.mpr ⟨hfits, hcounted⟩
    exact ⟨code, m, hcode, n, m', hn, body, c', ⟨hlength, hbody⟩, ⟨rfl, rfl⟩, rfl⟩

/-- No entry is written as nothing. -/
theorem encode_ne_nil (x : Extension) : x.encode ≠ [] := by
  intro h
  have hlength := congrArg List.length h
  rw [encode, List.length_append, List.length_append, Bytes.length_ofNat,
    List.length_nil] at hlength
  omega

theorem flatMap_encode_eq_nil_iff {list : List Extension} :
    list.flatMap encode = [] ↔ list = [] := by
  constructor
  · intro h
    obtain _ | ⟨x, later⟩ := list
    · rfl
    · exact absurd (List.append_eq_nil_iff.mp h).1 x.encode_ne_nil
  · rintro rfl
    rfl

/-- An entry that is written ahead of other bytes is read. -/
theorem exists_take {c : Cursor} {x : Extension} {rest : Bytes} (hfits : x.body.length < 65536)
    (hrest : c.rest = x.encode ++ rest) : ∃ m, take c = .ok (x, m) ∧ m.rest = rest :=
  ⟨⟨_, rest⟩, take_eq_ok_iff.mpr ⟨hfits, hrest, rfl⟩, rfl⟩

/-- **Entries are read to the end exactly if they are what is written there.** -/
theorem entries_eq_iff {c : Cursor} {list : List Extension} :
    entries c = (list, none) ↔
      (∀ x ∈ list, x.body.length < 65536) ∧ c.rest = list.flatMap encode := by
  fun_induction entries c generalizing list with
  | case1 c hempty =>
      rw [Cursor.isEmpty, List.isEmpty_iff] at hempty
      rw [hempty, eq_comm (b := list.flatMap encode), flatMap_encode_eq_nil_iff, Prod.mk.injEq]
      constructor
      · rintro ⟨rfl, -⟩
        exact ⟨fun x hx => absurd hx List.not_mem_nil, rfl⟩
      · rintro ⟨-, rfl⟩
        exact ⟨rfl, rfl⟩
  | case2 c hempty e htake =>
      refine ⟨fun h => (nomatch (Prod.mk.inj h).2), ?_⟩
      rintro ⟨hfits, hrest⟩
      obtain _ | ⟨x, later⟩ := list
      · exact absurd (List.isEmpty_iff.mpr hrest) hempty
      · obtain ⟨m, hx, -⟩ := exists_take (hfits x List.mem_cons_self) hrest
        rw [htake] at hx
        cases hx
  | case3 c hempty x m htake _ rest problem hentries ih =>
      obtain ⟨hfits, hrest, -⟩ := take_eq_ok_iff.mp htake
      rw [Prod.mk.injEq, hrest]
      constructor
      · rintro ⟨rfl, rfl⟩
        obtain ⟨hall, hlater⟩ := ih.mp hentries
        exact ⟨List.forall_mem_cons.mpr ⟨hfits, hall⟩, by rw [hlater, List.flatMap_cons]⟩
      · rintro ⟨hall, hlist⟩
        obtain _ | ⟨y, later⟩ := list
        · exact absurd (List.append_eq_nil_iff.mp hlist).1 x.encode_ne_nil
        · obtain ⟨hy, hlater⟩ := List.forall_mem_cons.mp hall
          obtain ⟨m', htake', hm'⟩ := exists_take hy (hrest.trans hlist)
          obtain ⟨rfl, rfl⟩ := Prod.mk.inj (Except.ok.inj (htake.symm.trans htake'))
          have heq := hentries.symm.trans (ih.mpr ⟨hlater, hm'⟩)
          obtain ⟨rfl, rfl⟩ := Prod.mk.inj heq
          exact ⟨rfl, rfl⟩

theorem encodeExtensions_eq_nil_iff {extensions : Option (List Extension)} :
    HelloMessage.encodeExtensions extensions = [] ↔ extensions = none := by
  cases extensions with
  | none => exact iff_of_true rfl rfl
  | some list => exact iff_of_false (List.cons_ne_nil _ _) (Option.some_ne_none _)

/-- **A block is read whole exactly if it is written there**, or nothing is. -/
theorem block_eq_ok_iff {c : Cursor} {list : List Extension} :
    block c = .ok (list, none) ↔ ∃ extensions : Option (List Extension),
      list = extensions.getD [] ∧ (∀ x ∈ list, x.body.length < 65536) ∧
      (list.flatMap encode).length < 65536 ∧
      c.rest = HelloMessage.encodeExtensions extensions := by
  rw [block]
  split
  · next hempty =>
    rw [Cursor.isEmpty, List.isEmpty_iff] at hempty
    rw [hempty]
    constructor
    · intro h
      obtain ⟨rfl, -⟩ := Prod.mk.inj (Except.ok.inj h)
      exact ⟨none, rfl, fun x hx => absurd hx List.not_mem_nil, Nat.succ_pos _, rfl⟩
    · rintro ⟨extensions, rfl, -, -, hrest⟩
      obtain rfl := encodeExtensions_eq_nil_iff.mp hrest.symm
      rfl
  · next hempty =>
    simp only [bind_eq_ok_iff, ite_throw_bind_eq_ok_iff, Prod.exists, Cursor.u16_eq_ok_iff, pure,
      Except.pure, Except.ok.injEq, entries_eq_iff, ne_eq, Classical.not_not]
    constructor
    · rintro ⟨declared, m, ⟨hrest, -⟩, hdeclared, hall, hentries⟩
      rw [Cursor.remaining, hentries] at hdeclared
      refine ⟨some list, rfl, hall, hdeclared ▸ declared.toNat_lt, ?_⟩
      rw [hrest, hentries, hdeclared]
      rfl
    · rintro ⟨extensions, rfl, hall, hfits, hrest⟩
      cases extensions with
      | none => exact absurd (List.isEmpty_iff.mpr hrest) hempty
      | some list =>
          have hlength : (UInt16.ofNat (list.flatMap encode).length).toNat =
              (list.flatMap encode).length := UInt16.toNat_ofNat_of_lt' hfits
          refine ⟨_, ⟨_, list.flatMap encode⟩, ⟨?_, rfl⟩, hlength, hall, rfl⟩
          rw [hrest, hlength]
          rfl

end Extension

/-! ## The fields and the message -/

namespace ClientHello

/-- A random is read exactly if it is there. -/
theorem takeRandom_eq_ok_iff {c c' : Cursor} {random : ClientRandom} :
    takeRandom c = .ok (random, c') ↔ c.Reaches random.val c' := by
  rw [takeRandom]
  constructor
  · intro h
    split at h
    · next bytes after htake =>
      obtain ⟨rfl, rfl⟩ := Prod.mk.inj (Except.ok.inj h)
      exact (Cursor.take_eq_ok_iff_reaches.mp htake).2
    · cases h
  · intro h
    have htake : c.take 32 "client random" = .ok (random.val, c') :=
      Cursor.take_eq_ok_iff_reaches.mpr ⟨random.property, h⟩
    split
    · next bytes after htake' =>
      obtain ⟨rfl, rfl⟩ := Prod.mk.inj (Except.ok.inj (htake'.symm.trans htake))
      rfl
    · next e htake' => exact absurd (htake'.symm.trans htake) (by simp)

/-- The hello that the fields ahead of the extension block say. -/
def ofFields (message : HelloMessage) : ClientHello :=
  { empty with
    version := message.version
    random := message.random
    sessionId := message.sessionId
    cipherSuites := message.cipherSuites
    compressionMethods := message.compressionMethods }

/-- **The fields are read exactly if those of a message are written there** that fit. -/
theorem takeFields_eq_ok_iff {c c' : Cursor} {hello : ClientHello} :
    takeFields c = .ok (hello, c') ↔ ∃ message : HelloMessage,
      message.sessionId.length ≤ maxSessionIdLength ∧
      (Bytes.ofCodes message.cipherSuites).length < 65536 ∧
      message.compressionMethods.length < 256 ∧
      hello = ofFields message ∧ c.Reaches message.fields c' := by
  simp only [takeFields, bind_eq_ok_iff, ite_throw_bind_eq_ok_iff, Prod.exists,
    Cursor.u8_eq_ok_iff, Cursor.u16_eq_ok_iff, Cursor.take_eq_ok_iff_reaches,
    takeRandom_eq_ok_iff, pure, Except.pure, Except.ok.injEq, Prod.mk.injEq, ne_eq,
    Classical.not_not, Nat.not_lt]
  constructor
  · rintro ⟨version, m₁, hversion, random, m₂, hrandom, idLength, m₃, hid, hmax, sessionId, m₄,
      ⟨hidLength, hsession⟩, suitesLength, m₅, hsuites, heven, suites, m₆, ⟨hsuitesLength, hcodes⟩,
      methodsLength, m₇, hmethods, methods, m₈, ⟨hmethodsLength, hmethod⟩, rfl, rfl⟩
    obtain ⟨-, hid⟩ := Cursor.exists_u8_iff_counted.mp ⟨idLength, m₃, hid, hidLength, hsession⟩
    obtain ⟨hfits, hsuites⟩ :=
      Cursor.exists_u16_iff_counted.mp ⟨suitesLength, m₅, hsuites, hsuitesLength, hcodes⟩
    obtain ⟨hfew, hmethods⟩ :=
      Cursor.exists_u8_iff_counted.mp ⟨methodsLength, m₇, hmethods, hmethodsLength, hmethod⟩
    have hwritten : Bytes.ofCodes (Bytes.codes suites) = suites :=
      Bytes.ofCodes_codes suites (hsuitesLength ▸ heven)
    rw [← hwritten] at hfits hsuites
    exact ⟨⟨version, random, sessionId, Bytes.codes suites, methods, none⟩, hidLength ▸ hmax,
      hfits, hfew, rfl, (((hversion.trans hrandom).trans hid).trans hsuites).trans hmethods⟩
  · rintro ⟨message, hmax, hfits, hfew, rfl, hfields⟩
    simp only [HelloMessage.fields, Cursor.reaches_append_iff] at hfields
    obtain ⟨m₆, ⟨m₄, ⟨m₂, ⟨m₁, hversion, hrandom⟩, hid⟩, hsuites⟩, hmethods⟩ := hfields
    have hshort : message.sessionId.length < 256 := Nat.lt_of_le_of_lt hmax (by decide)
    obtain ⟨idLength, m₃, hid, hidLength, hsession⟩ :=
      Cursor.exists_u8_iff_counted.mpr ⟨hshort, hid⟩
    obtain ⟨suitesLength, m₅, hsuites, hsuitesLength, hcodes⟩ :=
      Cursor.exists_u16_iff_counted.mpr ⟨hfits, hsuites⟩
    obtain ⟨methodsLength, m₇, hmethods, hmethodsLength, hmethod⟩ :=
      Cursor.exists_u8_iff_counted.mpr ⟨hfew, hmethods⟩
    have heven : suitesLength.toNat % 2 = 0 := by
      rw [← hsuitesLength, Bytes.length_ofCodes, Nat.mul_mod_right]
    refine ⟨message.version, m₁, hversion, message.random, m₂, hrandom, idLength, m₃, hid,
      hidLength ▸ hmax, message.sessionId, m₄, ⟨hidLength, hsession⟩, suitesLength, m₅, hsuites,
      heven, Bytes.ofCodes message.cipherSuites, m₆, ⟨hsuitesLength, hcodes⟩, methodsLength, m₇,
      hmethods, message.compressionMethods, c', ⟨hmethodsLength, hmethod⟩, ?_, rfl⟩
    rw [Bytes.codes_ofCodes]
    rfl

/-- **Bytes are split exactly if they start with a message** that is long enough to be looked
at. -/
theorem splitMessage_eq_ok_iff {data raw body : Bytes} :
    splitMessage data = .ok (raw, body) ↔
      minLength ≤ data.length ∧ body.length < Bytes.capacity 3 ∧
        raw = messageType :: counted 3 body ∧ raw <+: data := by
  simp only [splitMessage, bind_eq_ok_iff, ite_throw_bind_eq_ok_iff, Prod.exists,
    Cursor.u8_eq_ok_iff, Cursor.u24, Cursor.number_eq_ok_iff, Cursor.take_eq_ok_iff_reaches, pure,
    Except.pure, Except.ok.injEq, Prod.mk.injEq, ne_eq, Classical.not_not, Nat.not_lt]
  have hheader : ∀ body : Bytes, data.take (messageType :: counted 3 body).length =
      data.take (messageHeaderLength + body.length) := by
    intro body
    rw [List.length_cons, counted, List.length_append, Bytes.length_ofNat, messageHeaderLength]
    exact congrArg data.take (by omega)
  refine and_congr_right fun _ => ?_
  constructor
  · rintro ⟨_, m₁, htype, rfl, _, m₂, ⟨hlt, hlength⟩, body, m₃, ⟨rfl, hbody⟩, rfl, rfl⟩
    have hreaches := htype.trans (hlength.trans hbody)
    have htake := (hheader body).symm.trans (Cursor.take_of_reaches_start hreaches)
    exact ⟨hlt, htake, Cursor.reaches_start_iff.mp ⟨m₃, htake.symm ▸ hreaches⟩⟩
  · rintro ⟨hlt, rfl, hprefix⟩
    obtain ⟨c', hreaches⟩ := Cursor.reaches_start_iff.mpr hprefix
    obtain ⟨m₁, htype, hcounted⟩ := Cursor.reaches_cons_iff.mp hreaches
    obtain ⟨m₂, hlength, hbody⟩ := Cursor.reaches_counted_iff.mp hcounted
    have htake := (hheader body).symm.trans (Cursor.take_of_reaches_start hreaches)
    exact ⟨_, m₁, htype, rfl, _, m₂, ⟨hlt, hlength⟩, body, c', ⟨rfl, hbody⟩, htake, rfl⟩

/-- Parsing is splitting off the message, reading its fields and its block, and taking the entries
in. -/
theorem parse_eq_ok_iff_steps {data : Bytes} {hello : ClientHello} :
    parse data = .ok hello ↔ ∃ (raw body : Bytes) (fields : ClientHello) (c : Cursor)
      (list : List Extension),
      splitMessage data = .ok (raw, body) ∧ takeFields (Cursor.start body) = .ok (fields, c) ∧
        Extension.block c = .ok (list, none) ∧
        list.foldlM apply { fields with raw } = .ok hello := by
  simp only [parse, sections, bind_eq_ok_iff, Prod.exists]
  constructor
  · rintro ⟨_, _, _, ⟨raw, body, hsplit, fields, c, hfields, list, problem, hblock, h⟩, found,
      hfound, hend⟩
    obtain ⟨rfl, hpair⟩ := Prod.mk.inj (Except.ok.inj h)
    obtain ⟨rfl, rfl⟩ := Prod.mk.inj hpair
    cases problem with
    | some e => cases hend
    | none =>
        obtain rfl := Except.ok.inj hend
        exact ⟨raw, body, fields, c, list, hsplit, hfields, hblock, hfound⟩
  · rintro ⟨raw, body, fields, c, list, hsplit, hfields, hblock, hfound⟩
    exact ⟨_, list, none, ⟨raw, body, hsplit, fields, c, hfields, list, none, hblock, rfl⟩, hello,
      hfound, rfl⟩

end ClientHello

/-! ## Whole messages -/

namespace HelloMessage

theorem length_encode (message : HelloMessage) :
    message.encode.length = ClientHello.messageHeaderLength + message.body.length := by
  rw [encode, List.length_cons, counted, List.length_append, Bytes.length_ofNat,
    ClientHello.messageHeaderLength]
  omega

theorem length_body (message : HelloMessage) :
    message.body.length = 38 + message.sessionId.length +
      (Bytes.ofCodes message.cipherSuites).length + message.compressionMethods.length +
      (encodeExtensions message.extensions).length := by
  have hrandom := message.random.property
  simp only [body, counted, List.length_append, Bytes.length_ofNat]
  omega

/-- **No message is shorter than the least number of bytes that are looked at.** -/
theorem minLength_le_length_encode (message : HelloMessage) :
    ClientHello.minLength ≤ message.encode.length := by
  have hheader := message.length_encode
  have hbody := message.length_body
  rw [ClientHello.messageHeaderLength] at hheader
  rw [ClientHello.minLength]
  omega

/-- The length of a message whose other lengths fit fits three bytes. -/
theorem Bounded.length_body_lt {message : HelloMessage} (h : message.Bounded) :
    message.body.length < Bytes.capacity 3 := by
  have hblock : (encodeExtensions message.extensions).length < 65538 := by
    have hfits := h.block
    cases hextensions : message.extensions with
    | none => exact Nat.succ_pos _
    | some list =>
        rw [hextensions] at hfits
        rw [encodeExtensions, counted, List.length_append, Bytes.length_ofNat]
        exact Nat.add_lt_add_left hfits 2
  have hsession := h.sessionId
  have hsuites := h.cipherSuites
  have hmethods := h.compressionMethods
  have hthree : Bytes.capacity 3 = 16777216 := rfl
  rw [ClientHello.maxSessionIdLength] at hsession
  rw [message.length_body, hthree]
  omega

end HelloMessage

namespace ClientHello

/-- **A well-formed message is accepted, with anything behind it.** -/
theorem parse_encode_append {message : HelloMessage} {said : List (Option ExtensionValue)}
    (hbounded : message.Bounded)
    (hsaid : List.Forall₂ Extension.Says (message.extensions.getD []) said) (rest : Bytes) :
    parse (message.encode ++ rest) = .ok (message.hello (said.flatMap Option.toList)) := by
  have hlong : minLength ≤ (message.encode ++ rest).length := by
    rw [List.length_append]
    exact Nat.le_trans message.minLength_le_length_encode (Nat.le_add_right _ _)
  have hfields : (Cursor.start message.body).Reaches message.fields
      ⟨0 + message.fields.length, HelloMessage.encodeExtensions message.extensions⟩ :=
    ⟨message.body_eq, rfl⟩
  refine parse_eq_ok_iff_steps.mpr ⟨message.encode, message.body, ofFields message, _, _,
    splitMessage_eq_ok_iff.mpr ⟨hlong, hbounded.length_body_lt, rfl, List.prefix_append _ _⟩,
    takeFields_eq_ok_iff.mpr ⟨message, hbounded.sessionId, hbounded.cipherSuites,
      hbounded.compressionMethods, rfl, hfields⟩,
    Extension.block_eq_ok_iff.mpr ⟨message.extensions, rfl, hbounded.bodies, hbounded.block, rfl⟩,
    ?_⟩
  exact foldlM_apply_eq_ok_iff.mpr ⟨said, hsaid, rfl⟩

/-- **What is accepted is a well-formed message, with something behind it.** -/
theorem exists_message_of_parse {data : Bytes} {hello : ClientHello} (h : parse data = .ok hello) :
    ∃ (message : HelloMessage) (said : List (Option ExtensionValue)) (rest : Bytes),
      message.Bounded ∧ List.Forall₂ Extension.Says (message.extensions.getD []) said ∧
      data = message.encode ++ rest ∧ hello = message.hello (said.flatMap Option.toList) := by
  obtain ⟨raw, body, fields, c, list, hsplit, hfields, hblock, hfold⟩ :=
    parse_eq_ok_iff_steps.mp h
  obtain ⟨-, -, rfl, rest, rfl⟩ := splitMessage_eq_ok_iff.mp hsplit
  obtain ⟨written, hsession, hsuites, hmethods, rfl, hbody, -⟩ := takeFields_eq_ok_iff.mp hfields
  obtain ⟨extensions, rfl, hbodies, hfits, hrest⟩ := Extension.block_eq_ok_iff.mp hblock
  obtain ⟨said, hsaid, rfl⟩ := foldlM_apply_eq_ok_iff.mp hfold
  -- the fields were read as those of some message; the block completes it
  have hwhole : body = { written with extensions }.body := by
    rw [HelloMessage.body_eq, ← hrest]
    exact hbody
  subst hwhole
  exact ⟨{ written with extensions }, said, rest, ⟨hsession, hsuites, hmethods, hbodies, hfits⟩,
    hsaid, rfl, rfl⟩

/-- **Parsing accepts exactly the messages that are written**, whatever follows them, and gives the
hello that the message says.  That too short bytes are not looked at refuses none of them. -/
theorem parse_eq_ok_iff (data : Bytes) (hello : ClientHello) :
    (∀ message : HelloMessage, minLength ≤ message.encode.length) ∧
      (parse data = .ok hello ↔
        ∃ (message : HelloMessage) (said : List (Option ExtensionValue)) (rest : Bytes),
          message.Bounded ∧ List.Forall₂ Extension.Says (message.extensions.getD []) said ∧
          data = message.encode ++ rest ∧ hello = message.hello (said.flatMap Option.toList)) := by
  refine ⟨HelloMessage.minLength_le_length_encode, exists_message_of_parse, ?_⟩
  rintro ⟨message, said, rest, hbounded, hsaid, rfl, rfl⟩
  exact parse_encode_append hbounded hsaid rest

end ClientHello

end SplitHello
