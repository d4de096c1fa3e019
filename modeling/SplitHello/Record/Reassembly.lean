import SplitHello.Buffer
import SplitHello.Hello.Parse
import SplitHello.Record.Header

/-!
# Record/Reassembly — a client hello from the records on a byte source

A handshake message may be spread over several records, and a read may bring any part of a record
or several of them.  A `Reassembly` holds what was read ahead of the record at hand (`pending`)
and the payloads not yet taken up by a message (`buffered`).

`readRecord` takes one record in; `readHello` takes records in until a whole message is there.
The measure that ends the second is the number of bytes that are pending or still in the source:

* `weight_lt_of_readRecord` — every record uses up at least the five bytes of its header.
-/

namespace SplitHello

/-- What is held between the records of a source. -/
structure Reassembly where
  /-- What was read past the last record. -/
  pending : Option Buffer
  /-- The payloads not yet taken up by a message. -/
  buffered : Bytes
  deriving DecidableEq

namespace Reassembly

/-- Nothing is held yet. -/
def new : Reassembly := ⟨none, []⟩

/-- The bytes that are pending. -/
def pendingBytes (r : Reassembly) : Bytes := Buffer.contentOf r.pending

/-- How many bytes are pending or still in the source. -/
def weight (state : Reassembly × Source) : Nat :=
  state.1.pendingBytes.length + state.2.data.length

/-! ## One record -/

/-- What is held once nothing is pending any more. -/
def dropPending (r : Reassembly) : Reassembly := { r with pending := none }

/-- Take in a record whose header and payload are in `buffer`. -/
def takeRecord (r : Reassembly) (header : RecordHeader) (buffer : Buffer) (source : Source) :
    Reply (Reassembly × Source) (Except ReadError RecordHeader) :=
  let (rest, record) := buffer.cutAt header.totalLength
  let buffered := r.buffered ++ (record.seek RecordHeader.size).unread
  let pending := Buffer.contentOf rest
  ⟨.ok header, (⟨rest, buffered⟩, source),
    [.note (.appendedPayload buffered.length pending.length)]⟩

/-- Read one record and append its payload to what is buffered.  On failure what was pending is
lost, and what is buffered stays as it was. -/
def readRecord (r : Reassembly) (source : Source) :
    Reply (Reassembly × Source) (Except ReadError RecordHeader) :=
  match (r.pending.getD .empty).fillTo source RecordHeader.size with
  | ⟨some failure, (_, source), journal⟩ =>
      ⟨.error (.truncatedStream RecordHeader.size failure), (r.dropPending, source), journal⟩
  | ⟨none, (buffer, source), journal⟩ =>
      match RecordHeader.parse buffer.bytes with
      | .error e => ⟨.error (.notTls e), (r.dropPending, source), journal⟩
      | .ok header =>
          let note := Note.readHeader header.contentType header.version header.payloadLength
          match buffer.fillTo source header.totalLength with
          | ⟨some failure, (_, source), more⟩ =>
              ⟨.error (.truncatedStream header.totalLength failure),
                (r.dropPending, source), journal ++ .note note :: more⟩
          | ⟨none, (buffer, source), more⟩ =>
              (r.takeRecord header buffer source).after (journal ++ .note note :: more)

/-- **Every record uses up at least the five bytes of its header.** -/
theorem weight_lt_of_readRecord {r : Reassembly} {source : Source} {header : RecordHeader}
    (h : (r.readRecord source).result = .ok header) :
    weight (r.readRecord source).state < weight (r, source) := by
  unfold readRecord at h ⊢
  have hfirst := Buffer.append_fillTo (r.pending.getD .empty) source RecordHeader.size
  split at h
  · cases h
  · rename_i buffer₁ source₁ journal₁ h₁
    rw [h₁] at hfirst
    split at h
    · cases h
    · rename_i header₁ hparse
      have hsecond := Buffer.append_fillTo buffer₁ source₁ header₁.totalLength
      have hlong := @Buffer.le_length_fillTo buffer₁ source₁ header₁.totalLength
      dsimp only at h
      split at h
      · cases h
      · rename_i buffer₂ source₂ journal₂ h₂
        rw [h₂] at hsecond hlong
        simp only [Reply.state_after, takeRecord, weight, pendingBytes,
          Buffer.contentOf_cutAt, List.length_drop]
        have hpend : Buffer.contentOf r.pending = (r.pending.getD .empty).bytes := by
          cases r.pending <;> rfl
        have hlen₁ := congrArg List.length hfirst
        have hlen₂ := congrArg List.length hsecond
        have hl : header₁.totalLength ≤ buffer₂.bytes.length := hlong rfl
        simp only [List.length_append] at hlen₁ hlen₂
        simp only [hpend]
        have hsize : RecordHeader.size ≤ header₁.totalLength := Nat.le_add_right _ _
        have hfive : RecordHeader.size = 5 := rfl
        omega

/-! ## A whole message -/

/-- The type and the whole length of the message at the start of what is buffered, once its header
is there. -/
def messageAhead (buffered : Bytes) : Option (UInt8 × Nat) :=
  match buffered with
  | type :: l₂ :: l₁ :: l₀ :: _ =>
      some (type, ClientHello.messageHeaderLength + Bytes.toNat [l₂, l₁, l₀])
  | _ => none

/-- Read records until at least `length` bytes are buffered. -/
def gather (r : Reassembly) (source : Source) (length : Nat) :
    Reply (Reassembly × Source) (Except ReadError Unit) :=
  if length ≤ r.buffered.length then ⟨.ok (), (r, source), []⟩
  else
    let note := Note.messageContinues (length - r.buffered.length)
    let reply := r.readRecord source
    match h : reply.result with
    | .error e => ⟨.error e, reply.state, .note note :: reply.journal⟩
    | .ok _ =>
        have := weight_lt_of_readRecord h
        (gather reply.state.1 reply.state.2 length).after (.note note :: reply.journal)
  termination_by weight (r, source)

/-- Take a message of a type and a length out of what is buffered, and decode it. -/
def takeMessage (r : Reassembly) (source : Source) (type : UInt8) (length : Nat) :
    Reply (Reassembly × Source) (Except ReadError ClientHello) :=
  let message := r.buffered.take length
  let state := ({ r with buffered := r.buffered.drop length }, source)
  if type ≠ ClientHello.messageType then ⟨.error (.notTls (.notClientHello type)), state, []⟩
  else
    ⟨(ClientHello.parse message).mapError .notTls, state,
      (ClientHello.parseNotes message).map .note⟩

/-- Read records until a whole message is there, and decode it as a client hello. -/
def readHello (r : Reassembly) (source : Source) :
    Reply (Reassembly × Source) (Except ReadError ClientHello) :=
  match r.readRecord source with
  | ⟨.error e, state, journal⟩ => ⟨.error e, state, journal⟩
  | ⟨.ok _, (r, source), journal⟩ =>
      match messageAhead r.buffered with
      | none =>
          let e :=
            ParseError.bufferTooShort ClientHello.messageHeaderLength r.buffered.length
          ⟨.error (.notTls e), (r, source), journal⟩
      | some (type, length) =>
          match r.gather source length with
          | ⟨.error e, state, more⟩ => ⟨.error e, state, journal ++ more⟩
          | ⟨.ok _, (r, source), more⟩ =>
              (r.takeMessage source type length).after (journal ++ more)

end Reassembly

/-- Read a client hello from the start of a source. -/
def readHello (source : Source) : Reply (Reassembly × Source) (Except ReadError ClientHello) :=
  Reassembly.new.readHello source

/-- The client hello in the records at the start of `data`. -/
def ClientHello.parseRecords (data : Bytes) : Except ParseError ClientHello :=
  match (readHello (.ofBytes data)).result with
  | .ok hello => .ok hello
  | .error (.notTls e) => .error e
  | .error (.truncatedStream need _) => .error (.bufferTooShort need data.length)

end SplitHello
