import SplitHello.Record.Header
import SplitHello.Record.ReadError

/-!
# Proofs/Record/Front — the record at the front of a stream

A record is **admissible** if its version is one that a real peer sends and its payload fits the two
bytes that count it.  `Record.front` splits the first record off a byte stream, with the whole
stream at hand: it is what reading a record comes to once buffers, chunks and interruptions are left
out.

* `Record.front_eq_ok_iff` — a record is split off exactly if an admissible one is written there;
* `Record.front_eq_notTls` — a header that is refused is refused with anything behind it.
-/

namespace SplitHello

/-- Whether bytes are refused for the header of a record. -/
def ParseError.ofHeader : ParseError → Bool
  | notHandshakeRecord _ | sslv2Handshake | unsupportedRecordVersion _ => true
  | _ => false

/-- Whether reading failed at a record, and not at what records carry. -/
def ReadError.ofRecord : ReadError → Bool
  | truncatedStream _ _ => true
  | notTls e => e.ofHeader

/-! ## Headers -/

namespace RecordHeader

/-- Bytes that can hold a header start with five bytes. -/
theorem exists_of_size_le : ∀ {data : Bytes}, size ≤ data.length →
    ∃ c v₁ v₀ l₁ l₀ rest, data = c :: v₁ :: v₀ :: l₁ :: l₀ :: rest
  | c :: v₁ :: v₀ :: l₁ :: l₀ :: rest, _ => ⟨c, v₁, v₀, l₁, l₀, rest, rfl⟩
  | [], h | [_], h | [_, _], h | [_, _, _], h | [_, _, _, _], h => absurd h (by simp [size])

/-- A header is judged by its own bytes. -/
theorem parse_append {data : Bytes} (h : size ≤ data.length) (more : Bytes) :
    parse (data ++ more) = parse data := by
  obtain ⟨c, v₁, v₀, l₁, l₀, rest, rfl⟩ := exists_of_size_le h
  rfl

/-- The bytes of a header. -/
def encode (header : RecordHeader) : Bytes :=
  header.contentType ::
    (Bytes.ofNat 2 header.version.toNat ++ Bytes.ofNat 2 header.payloadLength.toNat)

/-- A number that is read off two bytes is written as these. -/
theorem ofNat_toNat_pair (high low : UInt8) :
    Bytes.ofNat 2 (UInt16.ofNat (Bytes.toNat [high, low])).toNat = [high, low] := by
  rw [UInt16.toNat_ofNat_of_lt' (Bytes.toNat_lt [high, low])]
  exact Bytes.ofNat_toNat [high, low]

/-- **A header that is accepted is that of an admissible record**, and it is written there. -/
theorem eq_encode_of_parse {data : Bytes} {header : RecordHeader} (h : parse data = .ok header) :
    header.contentType = handshakeContentType ∧ header.version < versionBound ∧
      data = header.encode ++ data.drop size := by
  unfold parse at h
  split at h
  · next c v₁ v₀ l₁ l₀ rest =>
    split at h
    · cases h
    · split at h
      · cases h
      · next hc =>
        dsimp only at h
        split at h
        · cases h
        · next hversion =>
          obtain rfl := Except.ok.inj h
          refine ⟨Classical.not_not.mp hc, UInt16.not_le.mp hversion, ?_⟩
          rw [encode, ofNat_toNat_pair, ofNat_toNat_pair]
          rfl
  · cases h

/-- A header that is all there is refused as one. -/
theorem ofHeader_of_parse {data : Bytes} {e : ParseError} (h : parse data = .error e)
    (hsize : size ≤ data.length) : e.ofHeader = true := by
  obtain ⟨c, v₁, v₀, l₁, l₀, rest, rfl⟩ := exists_of_size_le hsize
  rw [parse] at h
  split at h
  · obtain rfl := Except.error.inj h
    rfl
  · split at h
    · obtain rfl := Except.error.inj h
      rfl
    · split at h
      · obtain rfl := Except.error.inj h
        rfl
      · cases h

/-- The bytes that a header announces. -/
def payloadOf (header : RecordHeader) (data : Bytes) : Bytes :=
  (data.take header.totalLength).drop size

/-- As many bytes follow a header as it announces, if the record is all there. -/
theorem length_payloadOf {header : RecordHeader} {data : Bytes}
    (h : header.totalLength ≤ data.length) :
    (header.payloadOf data).length = header.payloadLength.toNat := by
  rw [payloadOf, List.length_drop, List.length_take_of_le h, totalLength, Nat.add_sub_cancel_left]

/-- The header and the bytes that it announces are the front of the data. -/
theorem encode_append_payloadOf {header : RecordHeader} {data : Bytes}
    (hparse : parse data = .ok header) :
    header.encode ++ header.payloadOf data = data.take header.totalLength := by
  obtain ⟨-, -, hdata⟩ := eq_encode_of_parse hparse
  have hsize : min size header.totalLength = size := Nat.min_eq_left (Nat.le_add_right _ _)
  have hheader : (data.take header.totalLength).take size = header.encode := by
    rw [List.take_take, hsize, hdata]
    exact List.take_left' rfl
  rw [payloadOf, ← hheader, List.take_append_drop]

end RecordHeader

/-! ## Records -/

namespace Record

/-- A record that is accepted where it is written. -/
structure Admissible (record : Record) : Prop where
  /-- Its version is one that a real peer sends. -/
  version_lt : record.version < RecordHeader.versionBound
  /-- The length of its payload fits two bytes. -/
  length_lt : record.payload.length < 65536

/-- The record at the front of a stream, and what follows it. -/
def front (stream : Bytes) : Except ReadError (Record × Bytes) :=
  if stream.length < RecordHeader.size then
    .error (.truncatedStream RecordHeader.size (.io .sourceEnded))
  else
    match RecordHeader.parse stream with
    | .error e => .error (.notTls e)
    | .ok header =>
        if stream.length < header.totalLength then
          .error (.truncatedStream header.totalLength (.io .sourceEnded))
        else
          .ok (⟨header.version, header.payloadOf stream⟩, stream.drop header.totalLength)

variable {record : Record} {stream rest : Bytes}

theorem length_encode (record : Record) :
    record.encode.length = RecordHeader.size + record.payload.length := by
  rw [encode, List.length_cons, List.length_append, List.length_append, Bytes.length_ofNat,
    Bytes.length_ofNat, RecordHeader.size]
  omega

/-- The length in the header of an admissible record is that of the record. -/
theorem Admissible.totalLength_header (h : record.Admissible) :
    record.header.totalLength = record.encode.length := by
  rw [length_encode, header, RecordHeader.totalLength, UInt16.toNat_ofNat_of_lt' h.length_lt]

/-- A record is its header and its payload, if the header can say how long that is. -/
theorem encode_eq (h : record.payload.length < 65536) :
    record.encode = record.header.encode ++ record.payload := by
  rw [RecordHeader.encode, header, UInt16.toNat_ofNat_of_lt' h]
  rfl

/-- The header of a record that is there is the header that was read. -/
theorem header_of_parse {header : RecordHeader} (hparse : RecordHeader.parse stream = .ok header)
    (h : header.totalLength ≤ stream.length) :
    (⟨header.version, header.payloadOf stream⟩ : Record).header = header := by
  obtain ⟨hcontent, -, -⟩ := RecordHeader.eq_encode_of_parse hparse
  rw [Record.header, RecordHeader.length_payloadOf h, UInt16.ofNat_toNat, ← hcontent]

/-- An admissible record is split off where it is written. -/
theorem front_encode (h : record.Admissible) (rest : Bytes) :
    front (record.encode ++ rest) = .ok (record, rest) := by
  have hlength := record.length_encode
  have hsize : ¬ (record.encode ++ rest).length < RecordHeader.size := by
    rw [List.length_append]
    omega
  have htotal : ¬ (record.encode ++ rest).length < record.header.totalLength := by
    rw [List.length_append, h.totalLength_header]
    omega
  have hpayload : record.header.payloadOf (record.encode ++ rest) = record.payload := by
    rw [RecordHeader.payloadOf, h.totalLength_header, List.take_left, encode_eq h.length_lt]
    exact List.drop_left' rfl
  rw [front, if_neg hsize, parse_encode record rest h.version_lt]
  dsimp only
  rw [if_neg htotal, h.totalLength_header, List.drop_left, hpayload]
  rfl

/-- What is split off is an admissible record, and it is written there. -/
theorem eq_encode_append_of_front (h : front stream = .ok (record, rest)) :
    record.Admissible ∧ stream = record.encode ++ rest := by
  rw [front] at h
  split at h
  · cases h
  · split at h
    · cases h
    · next header hparse =>
      split at h
      · cases h
      · next htotal =>
        obtain ⟨rfl, rfl⟩ := Prod.mk.inj (Except.ok.inj h)
        have hlong := Nat.le_of_not_lt htotal
        have hlt : (header.payloadOf stream).length < 65536 :=
          RecordHeader.length_payloadOf hlong ▸ header.payloadLength.toNat_lt
        refine ⟨⟨(RecordHeader.eq_encode_of_parse hparse).2.1, hlt⟩, ?_⟩
        rw [encode_eq hlt, header_of_parse hparse hlong,
          RecordHeader.encode_append_payloadOf hparse, List.take_append_drop]

/-- **A record is split off exactly if an admissible one is written there.** -/
theorem front_eq_ok_iff :
    front stream = .ok (record, rest) ↔ record.Admissible ∧ stream = record.encode ++ rest := by
  refine ⟨eq_encode_append_of_front, ?_⟩
  rintro ⟨hrecord, rfl⟩
  exact front_encode hrecord rest

/-- What fails at the front of a stream fails at a record. -/
theorem ofRecord_of_front {e : ReadError} (h : front stream = .error e) : e.ofRecord = true := by
  rw [front] at h
  split at h
  · obtain rfl := Except.error.inj h
    rfl
  · next hsize =>
    split at h
    · next e' hparse =>
      obtain rfl := Except.error.inj h
      exact RecordHeader.ofHeader_of_parse hparse (Nat.le_of_not_lt hsize)
    · split at h
      · obtain rfl := Except.error.inj h
        rfl
      · cases h

/-- A stream that holds no header fails at it. -/
theorem front_of_length_lt (h : stream.length < RecordHeader.size) :
    front stream = .error (.truncatedStream RecordHeader.size (.io .sourceEnded)) := by
  rw [front, if_pos h]

/-- A stream whose header is refused fails at it. -/
theorem front_of_refused {e : ParseError} (hsize : RecordHeader.size ≤ stream.length)
    (hparse : RecordHeader.parse stream = .error e) : front stream = .error (.notTls e) := by
  rw [front, if_neg (Nat.not_lt.mpr hsize), hparse]

/-- A stream that ends inside the payload fails there. -/
theorem front_of_lt_totalLength {header : RecordHeader}
    (hsize : RecordHeader.size ≤ stream.length) (hparse : RecordHeader.parse stream = .ok header)
    (h : stream.length < header.totalLength) :
    front stream = .error (.truncatedStream header.totalLength (.io .sourceEnded)) := by
  rw [front, if_neg (Nat.not_lt.mpr hsize), hparse]
  exact if_pos h

/-- A stream that holds the header and the payload starts with the record. -/
theorem exists_front_of_parse {header : RecordHeader}
    (hsize : RecordHeader.size ≤ stream.length) (hparse : RecordHeader.parse stream = .ok header)
    (h : header.totalLength ≤ stream.length) :
    ∃ record, front stream = .ok (record, stream.drop header.totalLength) ∧
      record.header = header ∧ record.payload = header.payloadOf stream := by
  refine ⟨⟨header.version, header.payloadOf stream⟩, ?_, header_of_parse hparse h, rfl⟩
  rw [front, if_neg (Nat.not_lt.mpr hsize), hparse]
  exact if_neg (Nat.not_lt.mpr h)

/-- A header that is refused is all there. -/
theorem size_le_of_front {e : ParseError} (h : front stream = .error (.notTls e)) :
    RecordHeader.size ≤ stream.length ∧ RecordHeader.parse stream = .error e := by
  rw [front] at h
  split at h
  · cases h
  · next hsize =>
    refine ⟨Nat.le_of_not_lt hsize, ?_⟩
    split at h
    · next e' hparse =>
      obtain rfl : e' = e := ReadError.notTls.inj (Except.error.inj h)
      exact hparse
    · split at h <;> cases h

/-- **A header that is refused is refused with anything behind it.** -/
theorem front_eq_notTls {e : ParseError} (h : front stream = .error (.notTls e)) (more : Bytes) :
    front (stream.take RecordHeader.size ++ more) = .error (.notTls e) := by
  obtain ⟨hsize, hparse⟩ := size_le_of_front h
  have htake : RecordHeader.size ≤ (stream.take RecordHeader.size).length :=
    Nat.le_of_eq (List.length_take_of_le hsize).symm
  have hown := RecordHeader.parse_append htake (stream.drop RecordHeader.size)
  rw [List.take_append_drop, hparse] at hown
  refine front_of_refused ?_ ((RecordHeader.parse_append htake more).trans hown.symm)
  rw [List.length_append]
  exact Nat.le_trans htake (Nat.le_add_right _ _)

end Record

end SplitHello
