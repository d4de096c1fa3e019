import SplitHello.Hello.InPlace
import SplitHello.Proofs.Hello.Parse

/-!
# Proofs/Hello/ClosedForm — what a row of extensions comes to

Extensions are taken in one after the other, each on the hello that the one before it left, whether
it failed or not.  What comes of it is said by the well-formed entries alone, and of these by the
bodies of each type: `told` gives every field from the bodies of its own type.

* `told_append_singleton` — one more well-formed entry does to the hello what it says;
* `foldl_afterTaking` — the hello that is left at the end;
* `told_congr` — entries of different types do not see each other;
* `takeIn_closed_form` — the whole, and what follows for a block and a message.
-/

namespace SplitHello

open HelloMessage (counted)

/-! ## Entries by type -/

theorem ExtensionType.code_injective {type other : ExtensionType} (h : type.code = other.code) :
    type = other := by
  rw [← Option.some_inj, ← ofCode?_code type, h, ofCode?_code]

namespace Extension

/-- An entry is well-formed if it says something, or is of no type. -/
def WellFormed (x : Extension) : Prop := ∃ said, x.Says said

theorem wellFormed_iff_isOk {x : Extension} : x.decode.isOk = true ↔ x.WellFormed := by
  simp only [WellFormed, ← decode_eq_ok_iff]
  cases x.decode with
  | ok said => exact iff_of_true rfl ⟨said, rfl⟩
  | error fault => exact iff_of_false Bool.false_ne_true fun ⟨_, h⟩ => nomatch h

instance (x : Extension) : Decidable x.WellFormed := decidable_of_iff _ wellFormed_iff_isOk

/-- An entry of no type is well-formed. -/
theorem wellFormed_of_unknown {x : Extension} (h : ∀ type : ExtensionType, x.code ≠ type.code) :
    x.WellFormed := ⟨none, .unknown h⟩

/-- The entries of a type, in order. -/
def ofType (type : ExtensionType) (entries : List Extension) : List Extension :=
  entries.filter (·.code = type.code)

/-- The bodies of the entries of a type, in order. -/
def bodies (type : ExtensionType) (entries : List Extension) : List Bytes :=
  (ofType type entries).map body

@[simp] theorem bodies_nil (type : ExtensionType) : bodies type [] = [] := rfl

theorem bodies_append_singleton (type : ExtensionType) (entries : List Extension) (x : Extension) :
    bodies type (entries ++ [x]) =
      bodies type entries ++ if x.code = type.code then [x.body] else [] := by
  rw [bodies, ofType, List.filter_append, List.map_append]
  by_cases h : x.code = type.code <;> simp [bodies, ofType, h]

/-- Two rows of entries have the same entries of each type, in the same order. -/
def SameOfEachType (first second : List Extension) : Prop :=
  ∀ type, ofType type first = ofType type second

/-- Entries of no type may be put in anywhere, or left out. -/
theorem sameOfEachType_insert {x : Extension} (h : ∀ type : ExtensionType, x.code ≠ type.code)
    (earlier later : List Extension) :
    SameOfEachType (earlier ++ x :: later) (earlier ++ later) := by
  intro type
  have hx : decide (x.code = type.code) = false := decide_eq_false (h type)
  rw [ofType, ofType, List.filter_append, List.filter_append, List.filter_cons_of_neg]
  simp [hx]

/-- Of two rows with the same entries of each type, the second is well-formed if the first is. -/
theorem SameOfEachType.wellFormed {first second : List Extension} (h : SameOfEachType first second)
    (hfirst : ∀ x ∈ first, x.WellFormed) : ∀ x ∈ second, x.WellFormed := by
  intro x hx
  by_cases hknown : ∃ type : ExtensionType, x.code = type.code
  · obtain ⟨type, hcode⟩ := hknown
    have hmem : x ∈ ofType type second := List.mem_filter.mpr ⟨hx, decide_eq_true hcode⟩
    rw [← h type] at hmem
    exact hfirst x (List.mem_of_mem_filter hmem)
  · exact wellFormed_of_unknown (not_exists.mp hknown)

end Extension

/-! ## The hello that they tell -/

namespace ClientHello

open Extension (bodies)

/-- The host name in the body of a server name extension, if it has one. -/
def nameIn (body : Bytes) : Option Bytes := (ServerName.hostName body).toOption.join

/-- The hello with what well-formed entries tell.  The last server name, curve list, point format
list and ticket count; one request for OCSP, one ticket and one offer are enough. -/
def told (hello : ClientHello) (entries : List Extension) : ClientHello :=
  { hello with
    sni := ((bodies .serverName entries).getLast?.map nameIn).getD hello.sni
    ocspStapling := hello.ocspStapling ||
      (bodies .statusRequest entries).any (·.head? = some ExtensionType.ocspStatus)
    supportedCurves := ((bodies .supportedCurves entries).getLast?.map fun body =>
      Bytes.codes (body.drop 2)).getD hello.supportedCurves
    supportedPoints := ((bodies .supportedPoints entries).getLast?.map fun body =>
      body.drop 1).getD hello.supportedPoints
    ticketSupported := hello.ticketSupported || !(bodies .sessionTicket entries).isEmpty
    sessionTicket := (bodies .sessionTicket entries).getLast?.getD hello.sessionTicket
    nextProtoNeg := hello.nextProtoNeg || !(bodies .nextProtoNeg entries).isEmpty }

theorem nameIn_of_lists {count : UInt16} {list : Bytes} {name : Option Bytes}
    (h : ServerName.Lists count.toNat list name) :
    nameIn (Bytes.ofNat 2 count.toNat ++ list) = name := by
  rw [nameIn, ServerName.hostName_eq_ok_iff.mpr ⟨count, list, rfl, h⟩]
  rfl

theorem drop_counted (width : Nat) (b : Bytes) : (counted width b).drop width = b :=
  List.drop_left' (Bytes.length_ofNat width b.length)

@[simp] theorem told_nil (hello : ClientHello) : hello.told [] = hello := by simp [told]

/-- **One more well-formed entry does to the hello what it says.** -/
theorem told_append_singleton (hello : ClientHello) (entries : List Extension) {x : Extension}
    {said : Option ExtensionValue} (h : x.Says said) :
    hello.told (entries ++ [x]) = said.toList.foldl set (hello.told entries) := by
  cases h with
  | unknown h => simp [told, Extension.bodies_append_singleton, h]
  | known h =>
      -- the body decides the fields of its own type; the entries of other types do not see it
      cases h with
      | serverName h =>
          simp [told, Extension.bodies_append_singleton, ExtensionType.code, set, nameIn_of_lists h]
      | _ =>
          simp [told, Extension.bodies_append_singleton, ExtensionType.code, set, drop_counted,
            Bytes.codes_ofCodes, Bool.or_assoc, beq_eq_decide, -List.drop_one]

/-- **Entries of different types do not see each other**: what entries tell depends on the entries
of each type alone. -/
theorem told_congr (hello : ClientHello) {first second : List Extension}
    (h : Extension.SameOfEachType first second) : hello.told first = hello.told second := by
  simp only [told, bodies, h _]

/-! ## Going on after faults -/

/-- **A call does what a well-formed entry says, or is refused and leaves the hello as it was.** -/
theorem afterTaking_cases (hello : ClientHello) (x : Extension) :
    (∃ said, x.Says said ∧ hello.afterTaking x = (.ok (), said.toList.foldl set hello)) ∨
      ¬ x.WellFormed ∧ ∃ e, hello.afterTaking x = (.error e, hello) := by
  rw [afterTaking_eq]
  cases happly : hello.apply x with
  | ok next =>
      obtain ⟨said, hsays, rfl⟩ := apply_eq_ok_iff.mp happly
      exact .inl ⟨said, hsays, rfl⟩
  | error e =>
      refine .inr ⟨fun ⟨said, hsays⟩ => ?_, e, rfl⟩
      cases happly.symm.trans (apply_eq_ok_iff.mpr ⟨said, hsays, rfl⟩)

/-- **The hello that is left at the end** is what the well-formed entries tell. -/
theorem foldl_afterTaking (hello : ClientHello) (entries : List Extension) :
    entries.foldl (fun hello x => (hello.afterTaking x).2) hello =
      hello.told (entries.filter (·.WellFormed)) := by
  induction entries using List.reverseRecOn with
  | nil => simp
  | append_singleton earlier x ih =>
      rw [List.foldl_append, ih, List.foldl_cons, List.foldl_nil]
      obtain ⟨said, hsays, heq⟩ | ⟨hx, e, heq⟩ :=
        afterTaking_cases (hello.told (earlier.filter (·.WellFormed))) x
      · have hx : x.WellFormed := ⟨said, hsays⟩
        rw [heq, ← told_append_singleton _ _ hsays]
        simp [hx]
      · rw [heq]
        simp [hx]

/-! ## What a call changes -/

/-- The hello without what extensions of a type say. -/
def without (hello : ClientHello) : ExtensionType → ClientHello
  | .serverName => { hello with sni := none }
  | .statusRequest => { hello with ocspStapling := false }
  | .supportedCurves => { hello with supportedCurves := [] }
  | .supportedPoints => { hello with supportedPoints := [] }
  | .sessionTicket => { hello with ticketSupported := false, sessionTicket := [] }
  | .nextProtoNeg => { hello with nextProtoNeg := false }

theorem without_set {type : ExtensionType} {body : Bytes} {value : ExtensionValue}
    (h : type.Says body value) (hello : ClientHello) :
    (hello.set value).without type = hello.without type := by
  cases h <;> rfl

/-- **A call that does not fail changes nothing but the fields of its type**, and nothing at all if
there is no such type. -/
theorem without_afterTaking (hello : ClientHello) (x : Extension)
    (h : (hello.afterTaking x).1 = .ok ()) :
    (∀ type, x.code = type.code → (hello.afterTaking x).2.without type = hello.without type) ∧
      ((∀ type : ExtensionType, x.code ≠ type.code) → (hello.afterTaking x).2 = hello) := by
  obtain ⟨said, hsays, heq⟩ | ⟨-, e, heq⟩ := afterTaking_cases hello x
  · rw [heq]
    cases hsays with
    | unknown hcode => exact ⟨fun type htype => absurd htype (hcode type), fun _ => rfl⟩
    | @known type body value hsays =>
        refine ⟨fun other hother => ?_, fun hcode => absurd rfl (hcode type)⟩
        obtain rfl : type = other := ExtensionType.code_injective hother
        exact without_set hsays hello
  · rw [heq] at h
    cases h

/-! ## Blocks and messages -/

/-- Entries are taken in exactly if each of them is well-formed, and the hello is then the one that
they tell. -/
theorem foldlM_apply_eq_ok_iff_told {hello h : ClientHello} {entries : List Extension} :
    entries.foldlM apply hello = .ok h ↔
      (∀ x ∈ entries, x.WellFormed) ∧ h = hello.told entries := by
  induction entries using List.reverseRecOn generalizing h with
  | nil => simp [pure, Except.pure, eq_comm]
  | append_singleton earlier x ih =>
      simp only [List.foldlM_append, List.foldlM_cons, List.foldlM_nil, bind_pure, bind_eq_ok_iff,
        ih, apply_eq_ok_iff, List.forall_mem_append, List.forall_mem_singleton]
      constructor
      · rintro ⟨_, ⟨hearlier, rfl⟩, said, hsays, rfl⟩
        exact ⟨⟨hearlier, said, hsays⟩, (told_append_singleton hello earlier hsays).symm⟩
      · rintro ⟨⟨hearlier, said, hsays⟩, rfl⟩
        exact ⟨_, ⟨hearlier, rfl⟩, said, hsays, told_append_singleton hello earlier hsays⟩

/-- The hello with the extension block at a cursor taken in, if anything is left there. -/
def takeBlock (hello : ClientHello) (c : Cursor) : Except ParseError ClientHello := do
  let (entries, problem) ← Extension.block c
  let hello ← entries.foldlM apply hello
  match problem with
  | none => return hello
  | some e => throw e

/-- Parsing is splitting off the message, reading its fields and taking in its block. -/
theorem parse_eq_takeBlock (data : Bytes) : parse data =
    splitMessage data >>= fun message => takeFields (Cursor.start message.2) >>= fun fields =>
      takeBlock { fields.1 with raw := message.1 } fields.2 := by
  simp only [parse, sections, bind_assoc, pure_bind]
  rfl

/-- A block that is written at a cursor is taken in entry by entry. -/
theorem takeBlock_eq_foldlM (hello : ClientHello) {c : Cursor}
    (extensions : Option (List Extension))
    (hbodies : ∀ x ∈ extensions.getD [], x.body.length < 65536)
    (hfits : ((extensions.getD []).flatMap Extension.encode).length < 65536)
    (hrest : c.rest = HelloMessage.encodeExtensions extensions) :
    hello.takeBlock c = (extensions.getD []).foldlM apply hello := by
  rw [takeBlock, Extension.block_eq_ok_iff.mpr ⟨extensions, rfl, hbodies, hfits, hrest⟩]
  exact bind_pure ((extensions.getD []).foldlM apply hello)

/-- What is taken in is a block that is written at the cursor, or nothing is there. -/
theorem exists_block_of_takeBlock {hello h : ClientHello} {c : Cursor}
    (htake : hello.takeBlock c = .ok h) : ∃ extensions : Option (List Extension),
      c.rest = HelloMessage.encodeExtensions extensions ∧
      (extensions.getD []).foldlM apply hello = .ok h := by
  simp only [takeBlock, bind_eq_ok_iff, Prod.exists] at htake
  obtain ⟨entries, problem, hblock, told, hfold, hend⟩ := htake
  cases problem with
  | some e => cases hend
  | none =>
      obtain rfl := Except.ok.inj hend
      obtain ⟨extensions, rfl, -, -, hrest⟩ := Extension.block_eq_ok_iff.mp hblock
      exact ⟨extensions, hrest, hfold⟩

/-- A message whose lengths fit is parsed, with anything behind it, by taking its entries in. -/
theorem parse_encode_append_eq {message : HelloMessage} (hbounded : message.Bounded)
    (rest : Bytes) : parse (message.encode ++ rest) = (message.extensions.getD []).foldlM apply
      { ofFields message with raw := message.encode } := by
  have hlong : minLength ≤ (message.encode ++ rest).length := by
    rw [List.length_append]
    exact Nat.le_trans message.minLength_le_length_encode (Nat.le_add_right _ _)
  have hsplit : splitMessage (message.encode ++ rest) = .ok (message.encode, message.body) :=
    splitMessage_eq_ok_iff.mpr ⟨hlong, hbounded.length_body_lt, rfl, List.prefix_append _ _⟩
  have hreaches : (Cursor.start message.body).Reaches message.fields
      ⟨0 + message.fields.length, HelloMessage.encodeExtensions message.extensions⟩ :=
    ⟨message.body_eq, rfl⟩
  have hfields := takeFields_eq_ok_iff.mpr ⟨message, hbounded.sessionId, hbounded.cipherSuites,
    hbounded.compressionMethods, rfl, hreaches⟩
  calc parse (message.encode ++ rest)
      = takeFields (Cursor.start message.body) >>= fun fields =>
          takeBlock { fields.1 with raw := message.encode } fields.2 := by
        rw [parse_eq_takeBlock, hsplit]
        rfl
    _ = takeBlock { ofFields message with raw := message.encode }
          ⟨_, HelloMessage.encodeExtensions message.extensions⟩ := by
        rw [hfields]
        rfl
    _ = _ := takeBlock_eq_foldlM _ _ hbounded.bodies hbounded.block rfl

/-- **Rows with the same entries of each type are taken in alike.** -/
theorem foldlM_apply_congr {hello h : ClientHello} {first second : List Extension}
    (hsame : Extension.SameOfEachType first second) (hfold : first.foldlM apply hello = .ok h) :
    second.foldlM apply hello = .ok h := by
  obtain ⟨hwell, rfl⟩ := foldlM_apply_eq_ok_iff_told.mp hfold
  exact foldlM_apply_eq_ok_iff_told.mpr ⟨hsame.wellFormed hwell, told_congr hello hsame⟩

/-- So a message parses alike with other extensions that are the same of each type, its own bytes
apart. -/
theorem parse_congr {message : HelloMessage} {entries others : List Extension}
    (hentries : message.extensions = some entries)
    (hsame : Extension.SameOfEachType entries others) (hbounded : message.Bounded)
    (hothers : { message with extensions := some others }.Bounded) {rest : Bytes} {h : ClientHello}
    (hparse : parse (message.encode ++ rest) = .ok h) (rest' : Bytes) :
    parse ({ message with extensions := some others }.encode ++ rest') =
      .ok { h with raw := { message with extensions := some others }.encode } := by
  rw [parse_encode_append_eq hbounded, hentries] at hparse
  obtain ⟨hwell, rfl⟩ := foldlM_apply_eq_ok_iff_told.mp hparse
  rw [parse_encode_append_eq hothers]
  refine foldlM_apply_eq_ok_iff_told.mpr ⟨hsame.wellFormed hwell, ?_⟩
  rw [Option.getD_some, told_congr _ hsame]
  rfl

/-- **The closed form of taking extensions in.**  A call that fails leaves the hello as it was; one
that does not changes only the fields of its type; and a call fails exactly on an entry that is not
well-formed.  Any row of calls, whether they fail or not, leaves the hello that the well-formed
entries tell.  So a block that is taken in may be changed in any way that leaves the entries of each
type and their order, as by putting in or leaving out entries of no type, and nothing else about the
hello changes than the bytes of its message. -/
theorem takeIn_closed_form :
    (∀ (hello : ClientHello) (x : Extension) (e : ParseError),
      (hello.afterTaking x).1 = .error e → (hello.afterTaking x).2 = hello) ∧
    (∀ (hello : ClientHello) (x : Extension), (hello.afterTaking x).1 = .ok () →
      (∀ type, x.code = type.code → (hello.afterTaking x).2.without type = hello.without type) ∧
      ((∀ type : ExtensionType, x.code ≠ type.code) → (hello.afterTaking x).2 = hello)) ∧
    (∀ (hello : ClientHello) (x : Extension),
      (hello.afterTaking x).1 = .ok () ↔ x.WellFormed) ∧
    (∀ entries : List Extension,
      entries.foldl (fun hello x => (hello.afterTaking x).2) empty =
        empty.told (entries.filter (·.WellFormed))) ∧
    (∀ (earlier later : List Extension) (x : Extension),
      (∀ type : ExtensionType, x.code ≠ type.code) →
      Extension.SameOfEachType (earlier ++ x :: later) (earlier ++ later)) ∧
    (∀ (hello h : ClientHello) (block : Bytes), block ≠ [] →
      hello.takeBlock (.start block) = .ok h →
      ∃ entries, block = counted 2 (entries.flatMap Extension.encode) ∧
        ∀ others, Extension.SameOfEachType entries others →
          (∀ x ∈ others, x.body.length < 65536) →
          (others.flatMap Extension.encode).length < 65536 →
          hello.takeBlock (.start (counted 2 (others.flatMap Extension.encode))) = .ok h) ∧
    (∀ (message : HelloMessage) (entries others : List Extension) (h : ClientHello)
      (rest rest' : Bytes), message.extensions = some entries →
      Extension.SameOfEachType entries others → message.Bounded →
      { message with extensions := some others }.Bounded →
      parse (message.encode ++ rest) = .ok h →
      parse ({ message with extensions := some others }.encode ++ rest') =
        .ok { h with raw := { message with extensions := some others }.encode }) := by
  refine ⟨fun hello x e he => ?_, without_afterTaking, fun hello x => ?_, foldl_afterTaking empty,
    fun earlier later x h => Extension.sameOfEachType_insert h earlier later, ?_, ?_⟩
  · obtain ⟨said, -, heq⟩ | ⟨-, e', heq⟩ := afterTaking_cases hello x
    · rw [heq] at he
      cases he
    · rw [heq]
  · obtain ⟨said, hsays, heq⟩ | ⟨hx, e, heq⟩ := afterTaking_cases hello x
    · exact iff_of_true (by rw [heq]) ⟨said, hsays⟩
    · exact iff_of_false (by simp [heq]) hx
  · intro hello h block hblock htake
    obtain ⟨extensions, hrest, hfold⟩ := exists_block_of_takeBlock htake
    cases extensions with
    | none => exact absurd hrest hblock
    | some entries =>
        refine ⟨entries, hrest, fun others hsame hbodies hfits => ?_⟩
        rw [takeBlock_eq_foldlM hello (some others) hbodies hfits rfl]
        exact foldlM_apply_congr hsame hfold
  · intro message entries others h rest rest' hentries hsame hbounded hothers hparse
    exact parse_congr hentries hsame hbounded hothers hparse rest'

/-- A message with a ticket and an offer to negotiate the next protocol. -/
def sampleTicketMessage : HelloMessage where
  version := 0x0303
  random := empty.random
  sessionId := []
  cipherSuites := [0x1301]
  compressionMethods := [0]
  extensions := some [⟨35, [1]⟩, ⟨13172, []⟩]

/-- The same extensions the other way round, and one of no type between them. -/
def sampleTicketLast : List Extension := [⟨13172, []⟩, ⟨7, [9]⟩, ⟨35, [1]⟩]

/-- A status request without a kind is refused and leaves the hello as it was; of two tickets the
last counts; and the message parses alike with its extensions the other way round. -/
theorem takeIn_closed_form_sample :
    (empty.afterTaking ⟨5, []⟩).2 = empty ∧
      [⟨35, [1]⟩, ⟨5, [1]⟩, ⟨5, []⟩, ⟨35, [2]⟩, ⟨5, [2]⟩].foldl
          (fun hello x => (hello.afterTaking x).2) empty =
        { empty with ocspStapling := true, ticketSupported := true, sessionTicket := [2] } ∧
      ∃ h, parse (sampleTicketMessage.encode ++ []) = .ok h ∧
        parse ({ sampleTicketMessage with extensions := some sampleTicketLast }.encode ++ [0]) =
          .ok { h with
            raw := { sampleTicketMessage with extensions := some sampleTicketLast }.encode } := by
  obtain ⟨herror, -, -, hfold, -, -, hparse⟩ := takeIn_closed_form
  have hbounded : sampleTicketMessage.Bounded := by constructor <;> decide
  have hothers : { sampleTicketMessage with extensions := some sampleTicketLast }.Bounded := by
    constructor <;> decide
  have hsame : Extension.SameOfEachType [⟨35, [1]⟩, ⟨13172, []⟩] sampleTicketLast := by
    intro type
    cases type <;> decide
  have htaken : parse (sampleTicketMessage.encode ++ []) = .ok
      ({ ofFields sampleTicketMessage with raw := sampleTicketMessage.encode }.told
        [⟨35, [1]⟩, ⟨13172, []⟩]) := by
    rw [parse_encode_append_eq hbounded]
    exact foldlM_apply_eq_ok_iff_told.mpr ⟨by decide +kernel, rfl⟩
  refine ⟨herror empty ⟨5, []⟩ (.invalidExtension .emptyStatusRequest) rfl,
    (hfold _).trans (by decide +kernel), _, htaken, ?_⟩
  exact hparse sampleTicketMessage _ sampleTicketLast _ [] [0] rfl hsame hbounded hothers htaken

end ClientHello

end SplitHello
