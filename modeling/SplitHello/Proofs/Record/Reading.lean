import SplitHello.Proofs.Source
import SplitHello.Record.Reassembly

/-!
# Proofs/Record/Reading — all that reading a record does

Reading a record fills a buffer twice, once for the header and once for the payload, and looks at
the header in between.  `RecordRead` has a case for each way in which this ends, with the calls that
led there; what holds of every read is proved case by case.

* `recordRead_readRecord` — reading a record ends in one of these ways;
* `readHello_of_ok` — reading a hello is reading a record and then a message;
* `Keeps.readHello` — what reading a record and decoding a message keep, reading a hello keeps;
* `steady_readRecord`, `steady_readHello` — a steady source stays one.
-/

namespace SplitHello.Reassembly

/-- The buffer that the next record is read into. -/
def atHand (r : Reassembly) : Buffer := r.pending.getD .empty

theorem bytes_atHand (r : Reassembly) : r.atHand.bytes = r.pendingBytes := by
  rw [atHand, pendingBytes, Buffer.contentOf]
  cases r.pending <;> rfl

/-- The ways in which reading a record ends. -/
inductive RecordRead (r : Reassembly) (source : Source) :
    Reply (Reassembly × Source) (Except ReadError RecordHeader) → Prop
  /-- The source ended or failed inside the header. -/
  | noHeader {buffer : Buffer} {after : Source} {failure : Failure} {journal : Journal}
      (h : r.atHand.fillTo source RecordHeader.size = ⟨some failure, (buffer, after), journal⟩) :
      RecordRead r source
        ⟨.error (.truncatedStream RecordHeader.size failure), (r.dropPending, after), journal⟩
  /-- The header was refused. -/
  | refused {buffer : Buffer} {after : Source} {e : ParseError} {journal : Journal}
      (h : r.atHand.fillTo source RecordHeader.size = ⟨none, (buffer, after), journal⟩)
      (hparse : RecordHeader.parse buffer.bytes = .error e) :
      RecordRead r source ⟨.error (.notTls e), (r.dropPending, after), journal⟩
  /-- The source ended or failed inside the payload. -/
  | noPayload {first second : Buffer} {between after : Source} {header : RecordHeader}
      {failure : Failure} {journal more : Journal}
      (h : r.atHand.fillTo source RecordHeader.size = ⟨none, (first, between), journal⟩)
      (hparse : RecordHeader.parse first.bytes = .ok header)
      (hmore : first.fillTo between header.totalLength = ⟨some failure, (second, after), more⟩) :
      RecordRead r source
        ⟨.error (.truncatedStream header.totalLength failure), (r.dropPending, after),
          journal ++
            .note (.readHeader header.contentType header.version header.payloadLength) :: more⟩
  /-- The record was taken in. -/
  | taken {first second : Buffer} {between after : Source} {header : RecordHeader}
      {journal more : Journal}
      (h : r.atHand.fillTo source RecordHeader.size = ⟨none, (first, between), journal⟩)
      (hparse : RecordHeader.parse first.bytes = .ok header)
      (hmore : first.fillTo between header.totalLength = ⟨none, (second, after), more⟩) :
      RecordRead r source ((r.takeRecord header second after).after (journal ++
        .note (.readHeader header.contentType header.version header.payloadLength) :: more))

/-- **Reading a record ends in one of these ways.** -/
theorem recordRead_readRecord (r : Reassembly) (source : Source) :
    RecordRead r source (r.readRecord source) := by
  rw [readRecord]
  split
  · next h => exact .noHeader h
  · next h =>
    split
    · next hparse => exact .refused h hparse
    · next hparse =>
      dsimp only
      split
      · next hmore => exact .noPayload h hparse hmore
      · next hmore => exact .taken h hparse hmore

/-! ## One hello -/

variable {r after : Reassembly} {source left : Source} {state : Reassembly × Source}
  {journal : Journal}

/-- Read records until the message is there of which something is buffered, and decode it. -/
def readMessage (r : Reassembly) (source : Source) :
    Reply (Reassembly × Source) (Except ReadError ClientHello) :=
  match messageAhead r.buffered with
  | none =>
      let e := ParseError.bufferTooShort ClientHello.messageHeaderLength r.buffered.length
      ⟨.error (.notTls e), (r, source), []⟩
  | some (type, length) =>
      match r.gather source length with
      | ⟨.error e, state, journal⟩ => ⟨.error e, state, journal⟩
      | ⟨.ok _, (r, source), journal⟩ => (r.takeMessage source type length).after journal

/-- Reading a hello fails if its first record does. -/
theorem readHello_of_error {e : ReadError} (h : r.readRecord source = ⟨.error e, state, journal⟩) :
    r.readHello source = ⟨.error e, state, journal⟩ := by
  rw [readHello, h]

/-- **Reading a hello is reading a record and then a message.** -/
theorem readHello_of_ok {header : RecordHeader}
    (h : r.readRecord source = ⟨.ok header, (after, left), journal⟩) :
    r.readHello source = (after.readMessage left).after journal := by
  rw [readHello, h, readMessage]
  dsimp only
  cases messageAhead after.buffered with
  | none => exact congrArg (Reply.mk _ _) (List.append_nil journal).symm
  | some seen =>
      dsimp only
      obtain ⟨_ | _, _, _⟩ := after.gather left seen.2
      · rfl
      · exact congrArg (Reply.mk _ _) (List.append_assoc ..)

theorem state_takeMessage (r : Reassembly) (source : Source) (type : UInt8) (length : Nat) :
    (r.takeMessage source type length).state =
      ({ r with buffered := r.buffered.drop length }, source) := by
  rw [takeMessage]
  split <;> rfl

/-! ## What every call keeps -/

/-- What reading a record and decoding a message keep: something of the state, and something of what
happens. -/
structure Keeps (Inv : Reassembly × Source → Prop) (Logs : Journal → Prop) : Prop where
  /-- It may be that nothing happens. -/
  nil : Logs []
  /-- One thing may happen after the other. -/
  append : ∀ {first second : Journal}, Logs first → Logs second → Logs (first ++ second)
  /-- It may be noted that a message goes on. -/
  continues : ∀ missing : Nat, Logs [.note (.messageContinues missing)]
  /-- Reading a record keeps it. -/
  readRecord : ∀ (r : Reassembly) (source : Source), Inv (r, source) →
    Inv (r.readRecord source).state ∧ Logs (r.readRecord source).journal
  /-- Decoding a message keeps it. -/
  takeMessage : ∀ (r : Reassembly) (source : Source) (type : UInt8) (length : Nat),
    Inv (r, source) → Inv (r.takeMessage source type length).state ∧
      Logs (r.takeMessage source type length).journal

namespace Keeps

variable {Inv : Reassembly × Source → Prop} {Logs : Journal → Prop} (h : Keeps Inv Logs)
include h

theorem gather {r : Reassembly} {source : Source} (hinv : Inv (r, source)) (length : Nat) :
    Inv (r.gather source length).state ∧ Logs (r.gather source length).journal := by
  fun_induction Reassembly.gather r source length with
  | case1 => exact ⟨hinv, h.nil⟩
  | case2 r source _ note reply e _ =>
      obtain ⟨hstate, hlogs⟩ := h.readRecord r source hinv
      exact ⟨hstate, h.append (h.continues _) hlogs⟩
  | case3 r source _ note reply _ _ _ ih =>
      obtain ⟨hstate, hlogs⟩ := h.readRecord r source hinv
      obtain ⟨hstate', hlogs'⟩ := ih hstate
      exact ⟨hstate', h.append (h.append (h.continues _) hlogs) hlogs'⟩

theorem readMessage {r : Reassembly} {source : Source} (hinv : Inv (r, source)) :
    Inv (r.readMessage source).state ∧ Logs (r.readMessage source).journal := by
  rw [Reassembly.readMessage]
  split
  · exact ⟨hinv, h.nil⟩
  · next type length _ =>
    have hgather := h.gather hinv length
    split
    · next hg =>
      rw [hg] at hgather
      exact hgather
    · next r source journal hg =>
      rw [hg] at hgather
      obtain ⟨hstate, hlogs⟩ := h.takeMessage r source type length hgather.1
      exact ⟨hstate, h.append hgather.2 hlogs⟩

/-- **Reading a hello keeps what reading a record and decoding a message keep.** -/
theorem readHello {r : Reassembly} {source : Source} (hinv : Inv (r, source)) :
    Inv (r.readHello source).state ∧ Logs (r.readHello source).journal := by
  have hrecord := h.readRecord r source hinv
  cases hread : r.readRecord source with
  | mk result state journal =>
      rw [hread] at hrecord
      cases result with
      | error e => rwa [readHello_of_error hread]
      | ok header =>
          rw [readHello_of_ok hread]
          obtain ⟨hstate, hlogs⟩ := h.readMessage hrecord.1
          exact ⟨hstate, h.append hrecord.2 hlogs⟩

end Keeps

/-! ## Steady sources -/

/-- A source that is filled from stays steady. -/
theorem steady_of_fillTo {buffer filled : Buffer} {source after : Source} {n : Nat}
    {failed : Option Failure} {journal : Journal} (hs : source.script.Steady)
    (h : buffer.fillTo source n = ⟨failed, (filled, after), journal⟩) : after.script.Steady := by
  have hafter := hs.fillTo buffer n
  rwa [h] at hafter

/-- A steady source stays steady when a record is read. -/
theorem steady_readRecord {source : Source} (hs : source.script.Steady) (r : Reassembly) :
    (r.readRecord source).state.2.script.Steady := by
  have hread := r.recordRead_readRecord source
  generalize r.readRecord source = reply at hread ⊢
  cases hread with
  | noHeader h => exact steady_of_fillTo hs h
  | refused h _ => exact steady_of_fillTo hs h
  | noPayload h _ hmore => exact steady_of_fillTo (steady_of_fillTo hs h) hmore
  | taken h _ hmore => exact steady_of_fillTo (steady_of_fillTo hs h) hmore

/-- So every call keeps a source steady. -/
theorem keeps_steady : Keeps (fun state => state.2.script.Steady) (fun _ => True) where
  nil := trivial
  append _ _ := trivial
  continues _ := trivial
  readRecord r _ hs := ⟨steady_readRecord hs r, trivial⟩
  takeMessage r source type length hs := by
    rw [state_takeMessage]
    exact ⟨hs, trivial⟩

/-- A steady source stays steady when a hello is read. -/
theorem steady_readHello {source : Source} (hs : source.script.Steady) (r : Reassembly) :
    (r.readHello source).state.2.script.Steady := (keeps_steady.readHello hs).1

end SplitHello.Reassembly
