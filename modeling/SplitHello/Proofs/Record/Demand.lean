import SplitHello.Proofs.Journal.Reads
import SplitHello.Proofs.Record.Runs
import SplitHello.Proofs.Record.Stream

/-!
# Proofs/Record/Demand — a source is read only when it must be

At each read call, the bytes that are pending and those that the call of the reader has brought so
far are some whole records and bytes that end inside another; the read asks for no less than is
missing of that one, and without it the call of the reader could not be answered.

* `eachRead_readRecord`, `eachRead_gather`, `eachRead_readHello` — the reads of each call are so;
* `reads_only_when_needed` — in any state, a request reads only when it must: never behind a header
  that is refused, nor once the records that it takes are there.
-/

namespace SplitHello.Reassembly

open Record (EndsInside)

/-! ## What a read is made on -/

/-- A read that asks for up to `room` bytes is made on whole records, which do not do yet, and bytes
that end inside another; and it asks for no less than is missing of that one. -/
def Demands (lacks : List Record → Prop) (atHand : Bytes) (room : Nat) : Prop :=
  ∃ (records : List Record) (held : Bytes) (need : Nat),
    (∀ record ∈ records, record.Admissible) ∧ atHand = Record.stream records ++ held ∧
      EndsInside held need ∧ need ≤ held.length + room ∧ lacks records

variable {lacks lacks' : List Record → Prop} {atHand : Bytes} {room : Nat}

theorem Demands.mono (h : Demands lacks atHand room)
    (hmono : ∀ records, lacks records → lacks' records) : Demands lacks' atHand room := by
  obtain ⟨records, held, need, hrecords, hatHand, hends, hneed, hlacks⟩ := h
  exact ⟨records, held, need, hrecords, hatHand, hends, hneed, hmono records hlacks⟩

/-- A read that is made on the bytes of one record is made on no whole ones. -/
theorem Demands.of_nil (hlacks : lacks []) (h : Demands (· = []) atHand room) :
    Demands lacks atHand room := h.mono fun _ hnil => hnil ▸ hlacks

/-- A read that is made on bytes is made on a record and these bytes. -/
theorem Demands.afterRecord {record : Record} (hrecord : record.Admissible)
    (h : Demands (fun records => lacks (record :: records)) atHand room) :
    Demands lacks (record.encode ++ atHand) room := by
  obtain ⟨records, held, need, hrecords, rfl, hends, hneed, hlacks⟩ := h
  refine ⟨record :: records, held, need, List.forall_mem_cons.mpr ⟨hrecord, hrecords⟩, ?_, hends,
    hneed, hlacks⟩
  rw [Record.stream_cons, List.append_assoc]

/-- No read asks for nothing. -/
theorem Demands.room_pos (h : Demands lacks atHand room) : 0 < room := by
  obtain ⟨records, held, need, -, -, hends, hneed, -⟩ := h
  have := hends.length_lt
  omega

/-! ## One record -/

variable {r : Reassembly} {source : Source} {header : RecordHeader}

/-- A first fill asks for what is missing of a header. -/
theorem eachRead_first {journal : Journal} {failed : Option Failure} {first : Buffer}
    {between : Source}
    (h : r.atHand.fillTo source RecordHeader.size = ⟨failed, (first, between), journal⟩) :
    journal.EachRead fun k room =>
      Demands (· = []) (r.pendingBytes ++ source.data.take k) room := by
  have hreads := r.atHand.eachRead_fillTo source RecordHeader.size
  rw [h, bytes_atHand] at hreads
  refine hreads.mono fun k room ⟨hlt, hle⟩ => ?_
  exact ⟨[], _, _, fun _ hmem => absurd hmem List.not_mem_nil, rfl, .header hlt, hle, rfl⟩

/-- A second fill asks for what is missing of a payload, behind a header that is accepted. -/
theorem eachRead_second {journal more : Journal} {failed : Option Failure}
    {first second : Buffer} {between after : Source}
    (h : r.atHand.fillTo source RecordHeader.size = ⟨none, (first, between), journal⟩)
    (hparse : RecordHeader.parse first.bytes = .ok header)
    (hmore : first.fillTo between header.totalLength = ⟨failed, (second, after), more⟩) :
    more.EachRead fun k room => Demands (· = [])
      (r.pendingBytes ++ source.data.take (journal.handedOut + k)) room := by
  have hreads := first.eachRead_fillTo between header.totalLength
  obtain ⟨hfirst, hbetween⟩ := Buffer.bytes_of_fillTo h
  rw [hmore] at hreads
  refine hreads.mono fun k room ⟨hlt, hle⟩ => ?_
  have hatHand : r.pendingBytes ++ source.data.take (journal.handedOut + k) =
      first.bytes ++ between.data.take k := by
    rw [hfirst, hbetween, bytes_atHand, List.take_add, List.append_assoc]
  rw [hatHand]
  have hheader := (RecordHeader.parse_append (le_length_of_fillTo h) (between.data.take k)).trans
    hparse
  exact ⟨[], _, _, fun _ hmem => absurd hmem List.not_mem_nil, rfl, .payload hheader hlt, hle, rfl⟩

/-- **Reading a record asks for what is missing of it.** -/
theorem eachRead_readRecord (r : Reassembly) (source : Source) :
    (r.readRecord source).journal.EachRead fun k room =>
      Demands (· = []) (r.pendingBytes ++ source.data.take k) room := by
  have hread := r.recordRead_readRecord source
  generalize r.readRecord source = reply at hread ⊢
  cases hread with
  | noHeader h => exact eachRead_first h
  | refused h _ => exact eachRead_first h
  | noPayload h hparse hmore =>
      refine Journal.eachRead_append_iff.mpr ⟨eachRead_first h, Journal.eachRead_note_iff.mpr ?_⟩
      exact eachRead_second h hparse hmore
  | taken h hparse hmore =>
      refine Journal.eachRead_append_iff.mpr ⟨Journal.eachRead_append_iff.mpr
        ⟨eachRead_first h, Journal.eachRead_note_iff.mpr (eachRead_second h hparse hmore)⟩, ?_⟩
      exact Journal.eachRead_note_iff.mpr Journal.eachRead_nil

/-- What the calls did not hand out is left. -/
theorem data_readRecord (r : Reassembly) (source : Source) :
    (r.readRecord source).state.2.data =
      source.data.drop (r.readRecord source).journal.handedOut := by
  have hread := r.recordRead_readRecord source
  generalize r.readRecord source = reply at hread ⊢
  cases hread with
  | noHeader h => exact (Buffer.bytes_of_fillTo h).2
  | refused h _ => exact (Buffer.bytes_of_fillTo h).2
  | noPayload h _ hmore =>
      rw [Journal.handedOut_append, Journal.handedOut_note, ← List.drop_drop,
        ← (Buffer.bytes_of_fillTo h).2]
      exact (Buffer.bytes_of_fillTo hmore).2
  | taken h _ hmore =>
      rw [Reply.journal_after, Journal.handedOut_append, Journal.handedOut_append,
        Journal.handedOut_note, ← List.drop_drop, ← List.drop_drop,
        ← (Buffer.bytes_of_fillTo h).2, ← (Buffer.bytes_of_fillTo hmore).2]
      rfl

/-- **A record that is taken stands at the front of what is at hand**, and its payload is
buffered. -/
theorem exists_record_of_readRecord (hok : (r.readRecord source).result = .ok header) :
    ∃ record : Record, record.Admissible ∧
      r.pendingBytes ++ source.data.take (r.readRecord source).journal.handedOut =
        record.encode ++ (r.readRecord source).state.1.pendingBytes ∧
      (r.readRecord source).state.1.buffered = r.buffered ++ record.payload := by
  have hfollows : Follows (r, source) ⟨r.pendingBytes ++ source.data, r.buffered, [], []⟩ :=
    ⟨rfl, rfl⟩
  have hmirrors := mirrors_readRecord hfollows
    (.inr fun ht => not_truncated_ok header (hok ▸ ht))
  obtain ⟨record, rest, hrecord, hahead, hflat⟩ :=
    FlatReader.exists_record_of_readRecord (hmirrors.result.symm.trans hok)
  have hafter := hmirrors.follows (congrArg failedAtRecord hok)
  have hbuffered := hmirrors.buffered
  rw [hflat] at hafter hbuffered
  refine ⟨record, hrecord, ?_, ?_⟩
  · -- what is left in the source is the same on both sides
    have hdata := data_readRecord r source
    have hrest : (r.readRecord source).state.1.pendingBytes ++
        (r.readRecord source).state.2.data = rest := hafter.ahead
    have hahead : r.pendingBytes ++ source.data = record.encode ++ rest := hahead
    refine (List.append_left_inj (source.data.drop
      (r.readRecord source).journal.handedOut)).mp ?_
    rw [List.append_assoc, List.take_append_drop, hahead, ← hrest, hdata, List.append_assoc]
  · rw [hbuffered, FlatReader.buffered_take_singleton]

/-- **The reads behind a record are made on the record and what is at hand behind it.** -/
theorem eachRead_afterRecord {after : Reassembly} {left : Source} {journal more : Journal}
    (h : r.readRecord source = ⟨.ok header, (after, left), journal⟩)
    (hmore : ∀ record : Record, after.buffered = r.buffered ++ record.payload →
      more.EachRead fun k room => Demands (fun records => lacks (record :: records))
        (after.pendingBytes ++ left.data.take k) room) :
    more.EachRead fun k room =>
      Demands lacks (r.pendingBytes ++ source.data.take (journal.handedOut + k)) room := by
  have hrecord := @exists_record_of_readRecord r source header
  have hdata := data_readRecord r source
  rw [h] at hrecord hdata
  obtain ⟨record, hrecord, hatHand, hbuffered⟩ := hrecord rfl
  refine (hmore record hbuffered).mono fun k room hdemands => ?_
  have hnext : r.pendingBytes ++ source.data.take (journal.handedOut + k) =
      record.encode ++ (after.pendingBytes ++ left.data.take k) := by
    rw [List.take_add, ← List.append_assoc, hatHand, List.append_assoc, ← hdata]
  rw [hnext]
  exact hdemands.afterRecord hrecord

/-! ## A whole message -/

/-- Decoding a message reads nothing. -/
theorem eachRead_takeMessage {P : Nat → Nat → Prop} (r : Reassembly) (source : Source)
    (type : UInt8) (length : Nat) : (r.takeMessage source type length).journal.EachRead P := by
  rw [takeMessage]
  split
  · exact Journal.eachRead_nil
  · exact Journal.eachRead_map_note _

/-- **Gathering asks for records only while too little is buffered.** -/
theorem eachRead_gather (r : Reassembly) (source : Source) (length : Nat) :
    (r.gather source length).journal.EachRead fun k room =>
      Demands (fun records => (r.buffered ++ Record.carried records).length < length)
        (r.pendingBytes ++ source.data.take k) room := by
  have hnone : ∀ {buffered : Bytes}, ¬ length ≤ buffered.length →
      (buffered ++ Record.carried []).length < length := fun hle => by
    rw [Record.carried_nil, List.append_nil]
    exact Nat.lt_of_not_le hle
  -- the records taken before a read are one more for each that was gathered ahead of it
  fun_induction gather r source length with
  | case1 => exact Journal.eachRead_nil
  | case2 r source hle note reply e he =>
      exact Journal.eachRead_note_iff.mpr
        ((eachRead_readRecord r source).mono fun k room => .of_nil (hnone hle))
  | case3 r source hle note reply header hok _ ih =>
      refine Journal.eachRead_append_iff.mpr ⟨Journal.eachRead_note_iff.mpr ?_, ?_⟩
      · exact (eachRead_readRecord r source).mono fun k room => .of_nil (hnone hle)
      · rw [Journal.handedOut_note]
        have hread : r.readRecord source = ⟨.ok header, (reply.state.1, reply.state.2),
            reply.journal⟩ := congrArg (Reply.mk · reply.state reply.journal) hok
        refine eachRead_afterRecord hread fun record hbuffered => ?_
        rw [hbuffered] at ih
        refine ih.mono fun k room hdemands => hdemands.mono fun records hshort => ?_
        rwa [Record.carried_cons, ← List.append_assoc]

/-- **Reading a message asks for records only while its header is there and some of it is
missing.** -/
theorem eachRead_readMessage (r : Reassembly) (source : Source) :
    (r.readMessage source).journal.EachRead fun k room =>
      Demands (fun records => ∃ type length, messageAhead r.buffered = some (type, length) ∧
        (r.buffered ++ Record.carried records).length < length)
        (r.pendingBytes ++ source.data.take k) room := by
  rw [readMessage]
  split
  · exact Journal.eachRead_nil
  · next type length hseen =>
    refine Journal.EachRead.mono (?_ : Journal.EachRead (fun k room =>
      Demands (fun records => (r.buffered ++ Record.carried records).length < length)
        (r.pendingBytes ++ source.data.take k) room) _) fun k room hdemands =>
      hdemands.mono fun records hshort => ⟨type, length, hseen, hshort⟩
    have hgather := eachRead_gather r source length
    generalize r.gather source length = reply at hgather ⊢
    obtain ⟨_ | _, state, journal⟩ := reply
    · exact hgather
    · exact Journal.eachRead_append_iff.mpr ⟨hgather, eachRead_takeMessage _ _ type length⟩

/-- The records that a request takes do not do for it: a request for one takes one; a request for a
hello takes one, and then as many as the message takes that the first of them shows. -/
def Lacks (buffered : Bytes) : Request → List Record → Prop
  | _, [] => True
  | .record, _ :: _ => False
  | .hello, first :: later => ∃ type length,
      messageAhead (buffered ++ first.payload) = some (type, length) ∧
        (buffered ++ Record.carried (first :: later)).length < length

/-- If records do not do, fewer do not either. -/
theorem Lacks.of_append {buffered : Bytes} {request : Request} {records more : List Record}
    (h : Lacks buffered request (records ++ more)) : Lacks buffered request records := by
  obtain _ | ⟨first, later⟩ := records
  · cases request <;> trivial
  · cases request with
    | record => exact h
    | hello =>
        obtain ⟨type, length, hseen, hshort⟩ := h
        refine ⟨type, length, hseen, Nat.lt_of_le_of_lt ?_ hshort⟩
        change _ ≤ (buffered ++ Record.carried (first :: later ++ more)).length
        rw [Record.carried_append, ← List.append_assoc]
        exact (List.prefix_append _ (Record.carried more)).length_le

/-- **Reading a hello asks for records only while a message is not there.** -/
theorem eachRead_readHello (r : Reassembly) (source : Source) :
    (r.readHello source).journal.EachRead fun k room =>
      Demands (Lacks r.buffered .hello) (r.pendingBytes ++ source.data.take k) room := by
  have hfirst : (r.readRecord source).journal.EachRead fun k room =>
      Demands (Lacks r.buffered .hello) (r.pendingBytes ++ source.data.take k) room :=
    (eachRead_readRecord r source).mono fun k room => .of_nil trivial
  cases hread : r.readRecord source with
  | mk result state journal =>
      rw [hread] at hfirst
      cases result with
      | error e =>
          rw [readHello_of_error hread]
          exact hfirst
      | ok header =>
          rw [readHello_of_ok hread]
          refine Journal.eachRead_append_iff.mpr ⟨hfirst, ?_⟩
          refine eachRead_afterRecord hread fun record hbuffered => ?_
          have hmessage := state.1.eachRead_readMessage state.2
          rw [hbuffered] at hmessage
          refine hmessage.mono fun k room hdemands => hdemands.mono ?_
          rintro records ⟨type, length, hseen, hshort⟩
          refine ⟨type, length, hseen, ?_⟩
          rwa [Record.carried_cons, ← List.append_assoc]

/-! ## A request -/

/-- **A request reads only while the records that it takes are not there.** -/
theorem eachRead_perform (state : Reassembly × Source) (request : Request) :
    (perform state request).journal.EachRead fun k room =>
      Demands (Lacks state.1.buffered request) (state.1.pendingBytes ++ state.2.data.take k)
        room := by
  cases request with
  | record => exact (eachRead_readRecord state.1 state.2).mono fun k room => .of_nil trivial
  | hello => exact eachRead_readHello state.1 state.2

/-- Where a read is made, no records at hand do, and no header is refused behind them. -/
theorem Demands.not_answered {buffered atHand rest : Bytes} {request : Request} {room : Nat}
    {records : List Record} (h : Demands (Lacks buffered request) atHand room)
    (hrecords : ∀ record ∈ records, record.Admissible)
    (hfront : Record.stream records ++ rest <+: atHand) :
    Lacks buffered request records ∧
      ¬ ∃ e, RecordHeader.size ≤ rest.length ∧ RecordHeader.parse rest = .error e := by
  obtain ⟨taken, held, need, htaken, rfl, hends, -, hlacks⟩ := h
  obtain ⟨⟨more, rfl⟩, hnever⟩ := hends.exists_append htaken hrecords hfront
  refine ⟨hlacks.of_append, ?_⟩
  rintro ⟨e, hsize, hparse⟩
  exact hnever e (Record.front_of_refused hsize hparse)

/-- **A source is read only when it must be.**  Whatever a reassembly holds and whatever the source
does, each read of a request asks for something, behind whole records that do not do for the request
and bytes that end inside another record; so none is made once records that do are at hand, or
behind a header that is refused, and none at all if that is so of what is pending. -/
theorem reads_only_when_needed (state : Reassembly × Source) (request : Request) :
    (∀ (before : Journal) (room : Nat) (got : Except Failure Nat) (later : Journal),
      (perform state request).journal = before ++ .read room got :: later →
        let atHand := state.1.pendingBytes ++ state.2.data.take before.handedOut
        0 < room ∧
        (∃ records held, (∀ record ∈ records, record.Admissible) ∧
          atHand = Record.stream records ++ held ∧ Lacks state.1.buffered request records ∧
          (held.length < RecordHeader.size ∨ ∃ header,
            RecordHeader.parse held = .ok header ∧ held.length < header.totalLength)) ∧
        ∀ records rest, (∀ record ∈ records, record.Admissible) →
          Record.stream records ++ rest <+: atHand →
            Lacks state.1.buffered request records ∧
            ¬ ∃ e, RecordHeader.size ≤ rest.length ∧ RecordHeader.parse rest = .error e) ∧
    ∀ records rest, (∀ record ∈ records, record.Admissible) →
      Record.stream records ++ rest <+: state.1.pendingBytes →
      (¬ Lacks state.1.buffered request records ∨
        ∃ e, RecordHeader.size ≤ rest.length ∧ RecordHeader.parse rest = .error e) →
      ∀ room got, .read room got ∉ (perform state request).journal := by
  have hreads := eachRead_perform state request
  constructor
  · intro before room got later hjournal atHand
    have hdemands := hreads before room got later hjournal
    refine ⟨hdemands.room_pos, ?_, fun records rest => hdemands.not_answered⟩
    obtain ⟨records, held, need, hrecords, hatHand, hends, -, hlacks⟩ := hdemands
    refine ⟨records, held, hrecords, hatHand, hlacks, ?_⟩
    obtain h | ⟨hparse, h⟩ := hends
    · exact .inl h
    · exact .inr ⟨_, hparse, h⟩
  · intro records rest hrecords hpending hanswered room got hmem
    obtain ⟨before, later, hjournal⟩ := List.append_of_mem hmem
    obtain ⟨hlacks, hnever⟩ := (hreads before room got later hjournal).not_answered hrecords
      (hpending.trans (List.prefix_append _ _))
    exact hanswered.elim (fun h => h hlacks) hnever

/-- The second read for the sample records in small chunks asks for something, and what is at hand
does not hold the records ahead of it; and a record that is pending is taken with no read. -/
theorem reads_only_when_needed_sample :
    (∃ later, (perform (new, sampleChunks) .hello).journal =
        [.read 1024 (.ok 3)] ++ .read 1021 (.error (.io ⟨.interrupted, "interrupted"⟩)) :: later ∧
      0 < 1021 ∧ ∃ records held, sampleChunks.data.take 3 = Record.stream records ++ held ∧
        Lacks [] .hello records) ∧
    ∀ room got, .read room got ∉
      (perform (perform (new, .ofBytes sampleStream) .hello).state .record).journal := by
  refine ⟨⟨(perform (new, sampleChunks) .hello).journal.drop 2, ?_⟩, ?_⟩
  · have hfirst : (perform (new, sampleChunks) .hello).journal.take 2 =
        [.read 1024 (.ok 3), .read 1021 (.error (.io ⟨.interrupted, "interrupted"⟩))] := by
      decide +kernel
    have hjournal : (perform (new, sampleChunks) .hello).journal = [.read 1024 (.ok 3)] ++
        .read 1021 (.error (.io ⟨.interrupted, "interrupted"⟩)) ::
          (perform (new, sampleChunks) .hello).journal.drop 2 :=
      (List.take_append_drop 2 _).symm.trans (congrArg (· ++ _) hfirst)
    obtain ⟨hpos, ⟨records, held, -, hheld, hlacks, -⟩, -⟩ :=
      (reads_only_when_needed (new, sampleChunks) .hello).1 _ _ _ _ hjournal
    exact ⟨hjournal, hpos, records, held, hheld, hlacks⟩
  · have hpending : (perform (new, .ofBytes sampleStream) .hello).state.1.pendingBytes =
        Record.stream [⟨0x0301, [1, 0xff, 7]⟩] ++ [0x17, 3] := by decide +kernel
    refine (reads_only_when_needed (perform (new, .ofBytes sampleStream) .hello).state .record).2
      [⟨0x0301, [1, 0xff, 7]⟩] [0x17, 3] ?_ ⟨[], ?_⟩ (.inl id)
    · exact List.forall_mem_singleton.mpr ⟨by decide, by decide⟩
    · rw [List.append_nil, hpending]

end SplitHello.Reassembly
