import SplitHello.Proofs.Buffer.Room
import SplitHello.Proofs.Guarded.Reading
import SplitHello.Proofs.Record.Loss
import SplitHello.Proofs.Record.Payloads

/-!
# Proofs/Record/Bounds — how much a reassembly holds, and for how much it asks

A record is no longer than its header can say, and what is pending was cut off a buffer that was to
hold a record.  So its room is at most the least that does for the longest record, over any run of
calls on any sources.  A hello's length is what its header can say, and gathering it stops with the
record that completes it; so what is buffered goes beyond it by less than one record.

* `bounded_of_fillTo`, `bounded_of_cutAt` — no buffer outgrows the room for a record;
* `staysBounded_readRecord`, `staysBounded_perform` — nor does what is pending, call by call;
* `holdsAtMost_gather` — what is buffered, while a message is gathered;
* `holds_and_asks_for_little` — both, over any run.
-/

namespace SplitHello

open Buffer (IsRoom)

/-- The least room that does for the longest record. -/
def roomForRecord : Nat := Buffer.baseCapacity * 2 ^ 7

theorem isRoom_roomForRecord : IsRoom roomForRecord := .inr ⟨7, rfl⟩

theorem RecordHeader.totalLength_le (header : RecordHeader) :
    header.totalLength ≤ roomForRecord := by
  have hlt : header.payloadLength.toNat < 2 ^ 16 := header.payloadLength.toNat_lt
  have hsize : header.totalLength = 5 + header.payloadLength.toNat := rfl
  have hroom : roomForRecord = 131072 := rfl
  omega

/-! ## Asking -/

/-- No read asks for more than the room for a record. -/
def Journal.AsksForRecord (journal : Journal) : Prop :=
  ∀ asked got, .read asked got ∈ journal → asked ≤ roomForRecord

namespace Journal.AsksForRecord

variable {first second journal : Journal}

theorem append (h : first.AsksForRecord) (h' : second.AsksForRecord) :
    AsksForRecord (first ++ second) := fun asked got hmem =>
  (List.mem_append.mp hmem).elim (h asked got) (h' asked got)

theorem note (h : journal.AsksForRecord) (n : Note) : AsksForRecord (.note n :: journal) :=
  fun asked got hmem => h asked got ((List.mem_cons.mp hmem).resolve_left Event.noConfusion)

/-- Where nothing happens, nothing is asked for. -/
theorem nil : AsksForRecord [] := fun _ _ hmem => absurd hmem List.not_mem_nil

/-- Where nothing is read, nothing is asked for. -/
theorem ofNotes (notes : List Note) : AsksForRecord (notes.map .note) := by
  intro asked got hmem
  obtain ⟨n, -, hn⟩ := List.mem_map.mp hmem
  cases hn

end Journal.AsksForRecord

namespace Buffer

variable {buffer filled rest : Buffer} {source after : Source} {n : Nat} {failed : Option Failure}
  {journal : Journal}

/-- What a buffer holds fits its room, and that is no more than a record needs. -/
structure Bounded (buffer : Buffer) : Prop where
  /-- What it holds fits. -/
  fits : buffer.Fits
  /-- There is no more room than a record needs. -/
  capacity_le : buffer.capacity ≤ roomForRecord

theorem bounded_empty : empty.Bounded := ⟨fits_empty, Nat.zero_le _⟩

/-- **A buffer that is filled with a record does not outgrow the room for one**, and nobody is asked
for more. -/
theorem bounded_of_fillTo (h : buffer.Bounded) (hn : n ≤ roomForRecord)
    (hfill : buffer.fillTo source n = ⟨failed, (filled, after), journal⟩) :
    filled.Bounded ∧ journal.AsksForRecord := by
  have hgrown : grown buffer.capacity n ≤ roomForRecord :=
    grown_le h.fits.isRoom isRoom_roomForRecord h.capacity_le hn
  have hfits := h.fits.fillTo source n
  have hcapacity : (buffer.fillTo source n).state.1.capacity ≤ roomForRecord := by
    rw [fillTo]
    split
    · exact h.capacity_le
    · exact hgrown
  have hasks : (buffer.fillTo source n).journal.AsksForRecord := by
    intro asked got hmem
    obtain ⟨_, _, he, hle⟩ := exists_read_of_mem_fillTo hmem
    cases he
    exact Nat.le_trans hle hgrown
  rw [hfill] at hfits hcapacity hasks
  exact ⟨⟨hfits, hcapacity⟩, hasks⟩

/-- **Nor does what is cut off one.** -/
theorem bounded_of_cutAt (h : buffer.Bounded) (hcut : (buffer.cutAt n).1 = some rest) :
    rest.Bounded := by
  obtain ⟨hfits, hbytes, -, hcapacity⟩ := fits_of_cutAt hcut
  have hlength : rest.bytes.length ≤ roomForRecord := by
    have hle := Nat.le_trans h.fits.length_le h.capacity_le
    rw [hbytes, List.length_drop]
    omega
  refine ⟨hfits, ?_⟩
  rw [hcapacity]
  exact grown_le isRoom_zero isRoom_roomForRecord (Nat.zero_le _) hlength

end Buffer

namespace Reassembly

variable {r : Reassembly} {bound : Nat}

/-! ## What is pending -/

/-- What is pending has no more room than a record needs. -/
def Bounded (r : Reassembly) : Prop := ∀ block ∈ r.pending, block.Bounded

theorem bounded_new : new.Bounded := fun _ h => absurd h (Option.not_mem_none _)

theorem bounded_dropPending (r : Reassembly) : r.dropPending.Bounded :=
  fun _ h => absurd h (Option.not_mem_none _)

theorem Bounded.atHand (h : r.Bounded) : r.atHand.Bounded := by
  rw [Reassembly.atHand]
  cases hpending : r.pending with
  | none => exact Buffer.bounded_empty
  | some block => exact h block hpending

/-- A call leaves no more room than a record needs, and asks for no more. -/
structure StaysBounded {α : Type} (reply : Reply (Reassembly × Source) α) : Prop where
  /-- What is pending in the end has no more room. -/
  bounded : reply.state.1.Bounded
  /-- No read asks for more. -/
  asks : reply.journal.AsksForRecord

theorem StaysBounded.after {α : Type} {reply : Reply (Reassembly × Source) α} {journal : Journal}
    (h : StaysBounded reply) (hjournal : journal.AsksForRecord) :
    StaysBounded (reply.after journal) := ⟨h.bounded, hjournal.append h.asks⟩

/-- **Reading a record leaves no more room than a record needs.** -/
theorem staysBounded_readRecord (h : r.Bounded) (source : Source) :
    StaysBounded (r.readRecord source) := by
  have hread := r.recordRead_readRecord source
  have hheader : RecordHeader.size ≤ roomForRecord := by decide
  generalize r.readRecord source = reply at hread ⊢
  cases hread with
  | noHeader hfill =>
      exact ⟨bounded_dropPending r, (Buffer.bounded_of_fillTo h.atHand hheader hfill).2⟩
  | refused hfill _ =>
      exact ⟨bounded_dropPending r, (Buffer.bounded_of_fillTo h.atHand hheader hfill).2⟩
  | @noPayload first second between left header failure journal more hfill _ hmore =>
      obtain ⟨hfirst, hjournal⟩ := Buffer.bounded_of_fillTo h.atHand hheader hfill
      obtain ⟨-, hmore⟩ := Buffer.bounded_of_fillTo hfirst header.totalLength_le hmore
      exact ⟨bounded_dropPending r, hjournal.append (hmore.note _)⟩
  | @taken first second between left header journal more hfill _ hmore =>
      obtain ⟨hfirst, hjournal⟩ := Buffer.bounded_of_fillTo h.atHand hheader hfill
      obtain ⟨hsecond, hmore⟩ := Buffer.bounded_of_fillTo hfirst header.totalLength_le hmore
      have htaken : StaysBounded (r.takeRecord header second left) :=
        ⟨fun block hblock => Buffer.bounded_of_cutAt hsecond hblock, .ofNotes [_]⟩
      exact htaken.after (hjournal.append (hmore.note _))

theorem staysBounded_takeMessage (h : r.Bounded) (source : Source) (type : UInt8) (length : Nat) :
    StaysBounded (r.takeMessage source type length) := by
  refine ⟨?_, ?_⟩
  · rw [state_takeMessage]
    exact h
  · rw [takeMessage]
    split
    · exact .nil
    · exact .ofNotes _

/-- Neither a record nor a message makes what is pending outgrow the room for a record. -/
theorem keeps_bounded : Keeps (fun state => state.1.Bounded) Journal.AsksForRecord where
  nil := .nil
  append hfirst hsecond := hfirst.append hsecond
  continues missing := .ofNotes [.messageContinues missing]
  readRecord _ source h :=
    have hread := staysBounded_readRecord h source
    ⟨hread.bounded, hread.asks⟩
  takeMessage _ source type length h :=
    have htake := staysBounded_takeMessage h source type length
    ⟨htake.bounded, htake.asks⟩

/-- **Nor does any call.** -/
theorem staysBounded_perform (h : r.Bounded) (source : Source) (request : Request) :
    StaysBounded (perform (r, source) request) := by
  cases request with
  | record =>
      have hread := staysBounded_readRecord h source
      exact ⟨hread.bounded, hread.asks⟩
  | hello =>
      have hhello : (r.readHello source).state.1.Bounded ∧
          (r.readHello source).journal.AsksForRecord := keeps_bounded.readHello h
      exact ⟨hhello.1, hhello.2⟩

/-- **Nor does any run of calls**, whatever sources they read from. -/
theorem staysBounded_each (h : r.Bounded) (source : Source)
    (calls : List (Request × Option Source)) :
    StaysBounded (Reply.each performWith (r, source) calls) := by
  induction calls generalizing r source with
  | nil => exact ⟨h, .nil⟩
  | cons call later ih =>
      have hcall : StaysBounded (performWith (r, source) call) :=
        staysBounded_perform h (call.2.getD source) call.1
      have hlater := ih hcall.bounded (performWith (r, source) call).state.2
      exact ⟨hlater.bounded, hcall.asks.append hlater.asks⟩

/-! ## What is buffered -/

/-- No more is buffered than a bound, neither in the end nor once any payload was taken in. -/
structure HoldsAtMost {α : Type} (bound : Nat) (reply : Reply (Reassembly × Source) α) : Prop where
  /-- In the end. -/
  buffered : reply.state.1.buffered.length ≤ bound
  /-- Once a payload was taken in. -/
  payloads : ∀ held ∈ reply.journal.payloads, held.1 ≤ bound

theorem HoldsAtMost.after {α : Type} {reply : Reply (Reassembly × Source) α} {journal : Journal}
    (h : HoldsAtMost bound reply) (hjournal : ∀ held ∈ journal.payloads, held.1 ≤ bound) :
    HoldsAtMost bound (reply.after journal) := by
  refine ⟨h.buffered, ?_⟩
  rw [Reply.journal_after, Journal.payloads_append]
  exact List.forall_mem_append.mpr ⟨hjournal, h.payloads⟩

/-- A payload is no longer than its header can say. -/
theorem length_buffered_readRecord (r : Reassembly) (source : Source) :
    (r.readRecord source).state.1.buffered.length ≤ r.buffered.length + 65535 := by
  cases hresult : (r.readRecord source).result with
  | error e =>
      rw [(exists_takesIn_of_error hresult).1]
      exact Nat.le_add_right _ _
  | ok header =>
      obtain ⟨record, -, htakes⟩ := exists_takesIn_of_ok hresult
      have hrecord : record.Admissible := htakes.admissible record (List.mem_singleton.mpr rfl)
      rw [htakes.buffered, Record.carried_singleton, List.length_append]
      exact Nat.add_le_add_left (Nat.le_of_lt_succ hrecord.length_lt) _

theorem holdsAtMost_readRecord (h : r.buffered.length + 65535 ≤ bound) (source : Source) :
    HoldsAtMost bound (r.readRecord source) := by
  have hbuffered := Nat.le_trans (r.length_buffered_readRecord source) h
  refine ⟨hbuffered, ?_⟩
  rw [payloads_readRecord]
  split
  · exact List.forall_mem_singleton.mpr hbuffered
  · exact List.forall_mem_nil _

/-- **Gathering a message goes beyond its length by less than one record.** -/
theorem holdsAtMost_gather {length : Nat} (h : r.buffered.length ≤ bound)
    (hlength : length + 65535 ≤ bound + 1) (source : Source) :
    HoldsAtMost bound (r.gather source length) := by
  fun_induction gather r source length with
  | case1 => exact ⟨h, List.forall_mem_nil _⟩
  | case2 r source hlt note reply e _ =>
      have hroom : r.buffered.length + 65535 ≤ bound := by omega
      have hread := holdsAtMost_readRecord hroom source
      exact ⟨hread.buffered, hread.payloads⟩
  | case3 r source hlt note reply _ _ _ ih =>
      have hroom : r.buffered.length + 65535 ≤ bound := by omega
      have hread := holdsAtMost_readRecord hroom source
      exact (ih hread.buffered).after hread.payloads

/-- A message is no longer than its header can say. -/
theorem length_le_of_messageAhead {buffered : Bytes} {type : UInt8} {length : Nat}
    (h : messageAhead buffered = some (type, length)) : length ≤ 4 + (2 ^ 24 - 1) := by
  unfold messageAhead at h
  split at h
  · next l₂ l₁ l₀ _ =>
    obtain ⟨-, rfl⟩ := Prod.mk.inj (Option.some.inj h)
    have hlt : Bytes.toNat [l₂, l₁, l₀] < 2 ^ 24 := Bytes.toNat_lt [l₂, l₁, l₀]
    have hheader : ClientHello.messageHeaderLength = 4 := rfl
    omega
  · cases h

/-- The most that is buffered while a hello is read: all of the longest message but one byte, and
the longest payload. -/
def buffersAtMost : Nat := (4 + (2 ^ 24 - 1)) - 1 + 65535

theorem holdsAtMost_readMessage (h : r.buffered.length ≤ buffersAtMost) (source : Source) :
    HoldsAtMost buffersAtMost (r.readMessage source) := by
  rw [readMessage]
  split
  · exact ⟨h, List.forall_mem_nil _⟩
  · next type length hahead =>
    have hlength := length_le_of_messageAhead hahead
    have hroom : length + 65535 ≤ buffersAtMost + 1 := by
      rw [buffersAtMost]
      omega
    have hgather := holdsAtMost_gather h hroom source
    split
    · next hg => exact ⟨(hg ▸ hgather).buffered, (hg ▸ hgather).payloads⟩
    · next r source journal hg =>
      rw [hg] at hgather
      refine HoldsAtMost.after ⟨?_, ?_⟩ hgather.payloads
      · rw [state_takeMessage]
        exact Nat.le_trans (List.drop_sublist _ _).length_le hgather.buffered
      · rw [payloads_takeMessage]
        exact List.forall_mem_nil _

/-- **Reading a hello from the start buffers no more than the longest message and a record.** -/
theorem holdsAtMost_readHello (source : Source) :
    HoldsAtMost buffersAtMost (new.readHello source) := by
  have hroom : new.buffered.length + 65535 ≤ buffersAtMost := by decide
  have hfirst := holdsAtMost_readRecord hroom source
  cases hrecord : new.readRecord source with
  | mk result state journal =>
      rw [hrecord] at hfirst
      cases result with
      | error e =>
          rw [readHello_of_error hrecord]
          exact ⟨hfirst.buffered, hfirst.payloads⟩
      | ok header =>
          rw [readHello_of_ok hrecord]
          exact (holdsAtMost_readMessage hfirst.buffered state.2).after hfirst.payloads

/-! ## Both -/

/-- **Whatever a peer sends, little of it is held and little is asked for at once.**  After any run
of calls on any sources, what is pending has room for no more than 131072 bytes, and no read of the
run asked for more.  While one hello is read from the start, no more is buffered than the longest
message without its last byte and the longest payload, whatever lengths the stream declares. -/
theorem holds_and_asks_for_little :
    (∀ (source : Source) (calls : List (Request × Option Source)),
      let run := Reply.each performWith (new, source) calls
      (∀ block ∈ run.state.1.pending,
        block.bytes.length ≤ block.capacity ∧ block.capacity ≤ 131072) ∧
      ∀ asked got, .read asked got ∈ run.journal → asked ≤ 131072) ∧
    ∀ source : Source,
      (∀ held ∈ (new.readHello source).journal.payloads,
        held.1 ≤ (4 + (2 ^ 24 - 1)) - 1 + 65535) ∧
      (new.readHello source).state.1.buffered.length ≤ (4 + (2 ^ 24 - 1)) - 1 + 65535 := by
  refine ⟨fun source calls => ?_, fun source => ?_⟩
  · have hrun := staysBounded_each bounded_new source calls
    refine ⟨fun block hblock => ?_, hrun.asks⟩
    have hbounded := hrun.bounded block hblock
    exact ⟨hbounded.fits.length_le, hbounded.capacity_le⟩
  · have hhello := holdsAtMost_readHello source
    exact ⟨hhello.payloads, hhello.buffered⟩

/-- A record, and then no more than the header of the longest one. -/
def headerOfLongest : Source := .ofBytes (Record.encode ⟨0x0301, [1]⟩ ++ [22, 3, 1, 255, 255])

/-- The header of the longest record is pending in a room of the smallest size; the next call asks
for nearly as much as is ever asked for. -/
theorem holds_and_asks_for_little_headerOfLongest :
    let first := Reply.each performWith (new, headerOfLongest) [(.record, none)]
    let both := Reply.each performWith (new, headerOfLongest) [(.record, none), (.record, none)]
    first.state.1.pending = some ⟨[22, 3, 1, 255, 255], [], 1024, 0⟩ ∧ 1024 ≤ 131072 ∧
      .read 131067 (.ok 0) ∈ both.journal ∧ 131067 ≤ 131072 := by
  intro first both
  have hpending : first.state.1.pending = some ⟨[22, 3, 1, 255, 255], [], 1024, 0⟩ := by
    decide +kernel
  have hread : .read 131067 (.ok 0) ∈ both.journal := by decide +kernel
  obtain ⟨hblock, -⟩ := holds_and_asks_for_little.1 headerOfLongest [(.record, none)]
  obtain ⟨-, hasks⟩ :=
    holds_and_asks_for_little.1 headerOfLongest [(.record, none), (.record, none)]
  exact ⟨hpending, (hblock _ hpending).2, hread, hasks _ _ hread⟩

end Reassembly

end SplitHello
