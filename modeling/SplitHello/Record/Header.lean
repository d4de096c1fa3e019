import SplitHello.Hello.ParseError

/-!
# Record/Header — records of the TLS record layer

A record is a header of five bytes and a payload: a content type, a version, the payload's length,
the payload.  Only headers of handshake records that a real client may send are accepted.

* `parse_encode` — the header of an encoded record is read back.
-/

namespace SplitHello

/-- The header of a record. -/
structure RecordHeader where
  /-- The content type. -/
  contentType : UInt8
  /-- The version of the record layer. -/
  version : UInt16
  /-- How many bytes of payload follow. -/
  payloadLength : UInt16
  deriving DecidableEq

/-- The content type of handshake records. -/
def handshakeContentType : UInt8 := 0x16

namespace RecordHeader

/-- The number of bytes of a header. -/
def size : Nat := 5

/-- The first byte of an SSLv2 record with a two-byte length. -/
def sslv2Marker : UInt8 := 0x80

/-- From this version on no peer is real. -/
def versionBound : UInt16 := 0x1000

/-- The header at the start of `data`. -/
def parse (data : Bytes) : Except ParseError RecordHeader :=
  match data with
  | contentType :: v₁ :: v₀ :: l₁ :: l₀ :: _ =>
      let version := UInt16.ofNat (Bytes.toNat [v₁, v₀])
      if contentType = sslv2Marker then .error .sslv2Handshake
      else if contentType ≠ handshakeContentType then .error (.notHandshakeRecord contentType)
      else if versionBound ≤ version then .error (.unsupportedRecordVersion version)
      else .ok ⟨contentType, version, UInt16.ofNat (Bytes.toNat [l₁, l₀])⟩
  | _ => .error (.bufferTooShort size data.length)

/-- The number of bytes of the header and its payload. -/
def totalLength (header : RecordHeader) : Nat := size + header.payloadLength.toNat

end RecordHeader

/-- A handshake record. -/
structure Record where
  /-- The version of the record layer. -/
  version : UInt16
  /-- What the record carries. -/
  payload : Bytes
  deriving DecidableEq

namespace Record

/-- The bytes of a record. -/
def encode (record : Record) : Bytes :=
  handshakeContentType ::
    (Bytes.ofNat 2 record.version.toNat ++ Bytes.ofNat 2 record.payload.length ++ record.payload)

/-- The header of a record. -/
def header (record : Record) : RecordHeader :=
  ⟨handshakeContentType, record.version, UInt16.ofNat record.payload.length⟩

/-- **The header of an encoded record is read back.** -/
theorem parse_encode (record : Record) (more : Bytes)
    (hversion : record.version < RecordHeader.versionBound) :
    RecordHeader.parse (record.encode ++ more) = .ok record.header := by
  have hv : UInt16.ofNat (Bytes.toNat (Bytes.ofNat 2 record.version.toNat)) = record.version := by
    rw [Bytes.toNat_ofNat_of_lt record.version.toNat_lt, UInt16.ofNat_toNat]
  have hl : UInt16.ofNat (Bytes.toNat (Bytes.ofNat 2 record.payload.length)) =
      UInt16.ofNat record.payload.length := by
    rw [Bytes.toNat_ofNat]
    exact UInt16.toNat_inj.mp (by simp [Bytes.capacity])
  have hnot : ¬ RecordHeader.versionBound ≤ record.version := UInt16.not_le.mpr hversion
  simp only [Bytes.ofNat, List.nil_append, List.cons_append] at hv hl
  simp only [encode, Bytes.ofNat, List.nil_append, List.cons_append, RecordHeader.parse, hv, hl,
    header]
  rw [if_neg (by decide), if_neg (by simp), if_neg hnot]

end Record

end SplitHello
