import SplitHello.Command.Report
import SplitHello.Proofs.Record.Refinement

/-!
# Proofs/Record/Carrying — a message cut into records is read back

Records **carry** a message if what they carry, taken together, starts with it, if the first brings
the four bytes of its header, and if none but the first could be left out at the end.  Where the
records are cut, and where the source cuts what it hands out, makes no difference.

* `Carries.brings` — a stream that starts with such records brings the message;
* `Brings.exists_carries` — a stream that brings a message starts with such records;
* `readHello_of_records` — reading a hello reads what records carry, and only that.
-/

namespace SplitHello

/-- Records that carry a message with something behind it. -/
structure Carries (first : Record) (later : List Record) (message : HandshakeMessage)
    (extra : Bytes) : Prop where
  /-- The records are accepted. -/
  admissible : ∀ record ∈ first :: later, record.Admissible
  /-- Together they carry the message and what is behind it. -/
  carried : Record.carried (first :: later) = message.encode ++ extra
  /-- The first brings the header of the message. -/
  header : ClientHello.messageHeaderLength ≤ first.payload.length
  /-- Without the last of several, some of the message would be missing. -/
  needed : later = [] ∨
    (Record.carried (first :: later).dropLast).length < message.encode.length

variable {first : Record} {later : List Record} {message : HandshakeMessage}
  {extra trailing : Bytes}

/-- The header that the first record brings is that of the message. -/
theorem Carries.messageAhead_eq (h : Carries first later message extra) :
    Reassembly.messageAhead first.payload = some (message.type, message.encode.length) := by
  cases hseen : Reassembly.messageAhead first.payload with
  | none => exact absurd (Reassembly.messageAhead_eq_none_iff.mp hseen) (Nat.not_lt.mpr h.header)
  | some seen =>
      have hmore := Reassembly.messageAhead_append hseen (Record.carried later)
      rw [← Record.carried_cons, h.carried, message.messageAhead_append extra] at hmore
      exact hmore.symm

/-- **A stream that starts with records that carry a message brings it.** -/
theorem Carries.brings (h : Carries first later message extra) (trailing : Bytes) :
    FlatReader.Brings (.start (Record.stream (first :: later) ++ trailing)) first later trailing
      message.type message.encode.length := by
  obtain ⟨hfirst, hlater⟩ := List.forall_mem_cons.mp h.admissible
  refine ⟨hfirst, rfl, h.messageAhead_eq, hlater, ?_, ?_⟩
  · change message.encode.length ≤ (Record.carried (first :: later)).length
    rw [h.carried, List.length_append]
    exact Nat.le_add_right _ _
  · by_cases hne : later = []
    · exact .inl hne
    · have hshort := h.needed.resolve_left hne
      rw [Record.carried_dropLast_cons first hne] at hshort
      exact .inr hshort

/-- **A stream that brings a message starts with records that carry it.** -/
theorem FlatReader.Brings.exists_carries {data : Bytes} {type : UInt8} {length : Nat}
    (h : FlatReader.Brings (.start data) first later trailing type length) :
    ∃ message extra, Carries first later message extra ∧ message.type = type ∧
      message.encode.length = length := by
  obtain ⟨message, htype, hlength, htake⟩ := h.exists_message
  refine ⟨message, (Record.carried (first :: later)).drop length, ⟨?_, ?_, ?_, ?_⟩, htype, hlength⟩
  · exact List.forall_mem_cons.mpr ⟨h.admissible, h.needed.admissible⟩
  · rw [← htake]
    exact (List.take_append_drop length (Record.carried (first :: later))).symm
  · refine Nat.le_of_not_lt fun hshort => ?_
    cases h.header.symm.trans (Reassembly.messageAhead_eq_none_iff.mpr hshort)
  · by_cases hne : later = []
    · exact .inl hne
    · have hshort := h.needed.needed.resolve_left hne
      rw [Record.carried_dropLast_cons first hne, hlength]
      exact .inr hshort

/-- What a flat reader makes of records that carry a message. -/
theorem Carries.readHello_eq (h : Carries first later message extra) (trailing : Bytes) :
    (FlatReader.start (Record.stream (first :: later) ++ trailing)).readHello =
      ⟨ClientHello.ofMessage message.type message.encode,
        ⟨trailing, extra, first :: later, [message.encode]⟩, []⟩ := by
  have hbuffered : ((FlatReader.start (Record.stream (first :: later) ++ trailing)).take
      (first :: later) trailing).buffered = message.encode ++ extra := h.carried
  rw [(h.brings trailing).readHello_eq, FlatReader.drain, hbuffered, List.take_left, List.drop_left]
  rfl

/-- **Records that carry a message are read as it**, in whatever chunks they come. -/
theorem Carries.readHello_of_handsOut (h : Carries first later message extra) {source : Source}
    (hsource : source.HandsOut (Record.stream (first :: later) ++ trailing)) :
    (readHello source).result = ClientHello.ofMessage message.type message.encode ∧
      (readHello source).state.1.buffered = extra := by
  have hfollows := Reassembly.follows_new source
  rw [hsource.data_eq] at hfollows
  have hmirrors := Reassembly.mirrors_readHello hfollows (.inl hsource.steady)
  rw [h.readHello_eq trailing] at hmirrors
  exact ⟨hmirrors.result, hmirrors.buffered⟩

/-- **A hello that is read was carried by records**, whatever the source does. -/
theorem exists_carries_of_readHello {source : Source} {hello : ClientHello}
    (h : (readHello source).result = .ok hello) :
    ∃ first later message extra trailing, Carries first later message extra ∧
      source.data = Record.stream (first :: later) ++ trailing ∧
      ClientHello.ofMessage message.type message.encode = .ok hello ∧
      (readHello source).state.1.buffered = extra := by
  have hmirrors := Reassembly.mirrors_readHello (Reassembly.follows_new source)
    (.inr fun ht => Reassembly.not_truncated_ok hello (h ▸ ht))
  have hflat := hmirrors.result.symm.trans h
  rcases (FlatReader.start source.data).readHello_cases with
    ⟨e, -, he⟩ | ⟨_, _, -, -, -, he⟩ | ⟨first, later, trailing, type, length, hbrings⟩
  · cases he.symm.trans hflat
  · rw [he] at hflat
    cases hflat
  · obtain ⟨message, extra, hcarries, -, -⟩ := hbrings.exists_carries
    have hdata : source.data = Record.stream (first :: later) ++ trailing := hbrings.ahead
    rw [hdata, hcarries.readHello_eq trailing] at hflat hmirrors
    exact ⟨first, later, message, extra, trailing, hcarries, hdata, hflat, hmirrors.buffered⟩

/-- **Reading a hello reads what records carry**, however the message is cut into records and the
records into chunks; and a hello that is read was carried so, whatever the source does. -/
theorem readHello_of_records :
    (∀ (first : Record) (later : List Record) (message : HandshakeMessage)
      (extra trailing : Bytes) (source : Source), Carries first later message extra →
      source.HandsOut (Record.stream (first :: later) ++ trailing) →
        (message.type ≠ ClientHello.messageType →
          (readHello source).result = .error (.notTls (.notClientHello message.type))) ∧
        (message.type = ClientHello.messageType →
          (readHello source).result = (ClientHello.parse message.encode).mapError .notTls) ∧
        (readHello source).state.1.buffered = extra) ∧
    ∀ (source : Source) (hello : ClientHello), (readHello source).result = .ok hello →
      ∃ first later message extra trailing, Carries first later message extra ∧
        source.data = Record.stream (first :: later) ++ trailing ∧
        message.type = ClientHello.messageType ∧ ClientHello.parse message.encode = .ok hello ∧
        (readHello source).state.1.buffered = extra := by
  constructor
  · intro first later message extra trailing source hcarries hsource
    obtain ⟨hresult, hbuffered⟩ := hcarries.readHello_of_handsOut hsource
    refine ⟨fun htype => ?_, fun htype => ?_, hbuffered⟩
    · exact hresult.trans (if_pos htype)
    · exact hresult.trans (if_neg (Classical.not_not.mpr htype))
  · intro source hello hok
    obtain ⟨first, later, message, extra, trailing, hcarries, hdata, hread, hbuffered⟩ :=
      exists_carries_of_readHello hok
    obtain ⟨htype, hparse⟩ := ClientHello.parse_of_ofMessage hread
    exact ⟨first, later, message, extra, trailing, hcarries, hdata, htype, hparse, hbuffered⟩

/-- The sample hello as a handshake message. -/
def sampleHandshake : HandshakeMessage := ⟨1, Report.sampleMessage.body, by decide +kernel⟩

/-- The sample hello in three records, of which the second carries nothing, with three bytes behind
it in the last. -/
def sampleRecords : List Record :=
  [⟨0x0301, sampleHandshake.encode.take 7⟩, ⟨0x0303, []⟩,
    ⟨0x0fff, sampleHandshake.encode.drop 7 ++ [0x0e, 0, 0]⟩]

/-- These records and two more bytes, in chunks of three, four and then five bytes, with two
interruptions. -/
def sampleChunks : Source where
  data := Record.stream sampleRecords ++ [0x17, 3]
  script := ⟨[.moves 3, .fails (.io ⟨.interrupted, "interrupted"⟩), .moves 4,
    .fails (.io ⟨.interrupted, "interrupted"⟩)], some 5⟩

/-- The sample hello is read off its records, and what stands behind it stays buffered; and because
it is read, it was carried so. -/
theorem readHello_of_records_sample :
    (readHello sampleChunks).result = (ClientHello.parse sampleHandshake.encode).mapError .notTls ∧
      (readHello sampleChunks).state.1.buffered = [0x0e, 0, 0] ∧
      ∃ first later message trailing hello, Carries first later message [0x0e, 0, 0] ∧
        sampleChunks.data = Record.stream (first :: later) ++ trailing ∧
        ClientHello.parse message.encode = .ok hello := by
  obtain ⟨hforth, hback⟩ := readHello_of_records
  have hcarries : Carries ⟨0x0301, sampleHandshake.encode.take 7⟩ sampleRecords.tail
      sampleHandshake [0x0e, 0, 0] := by
    refine ⟨?_, by decide +kernel, by decide +kernel, .inr (by decide +kernel)⟩
    refine List.forall_mem_cons.mpr ⟨⟨by decide, by decide +kernel⟩, ?_⟩
    refine List.forall_mem_cons.mpr ⟨⟨by decide, by decide⟩, ?_⟩
    exact List.forall_mem_singleton.mpr ⟨by decide, by decide +kernel⟩
  obtain ⟨-, hhello, hbuffered⟩ := hforth _ _ _ _ [0x17, 3] sampleChunks hcarries
    ⟨rfl, by decide, by decide⟩
  have hread : (readHello sampleChunks).result.toOption.isSome := by decide +kernel
  refine ⟨hhello rfl, hbuffered, ?_⟩
  cases hresult : (readHello sampleChunks).result with
  | error e =>
      rw [hresult] at hread
      cases hread
  | ok hello =>
      obtain ⟨first, later, message, extra, trailing, hcarries, hdata, -, hparse, hextra⟩ :=
        hback sampleChunks hello hresult
      obtain rfl : extra = [0x0e, 0, 0] := hextra.symm.trans hbuffered
      exact ⟨first, later, message, trailing, hello, hcarries, hdata, hparse⟩

end SplitHello
