import SplitHello.Proofs.Guarded.Block
import SplitHello.Proofs.Guarded.Parsing
import SplitHello.Proofs.Record.Demand

/-!
# Proofs/Guarded/Reading — reading hellos with guarded operations

A guarded reader holds a block where a reassembly holds a buffer.  `StandsFor` says that the one
block holds the other, and that the same is buffered; it survives every call, those that fail
included, so no call of a run finds the reader in a state in which it would use an operation outside
its domain.

* `buffered_gather` — gathering leaves the message that it was for at the front of what is buffered;
* `agrees_readRecord`, `agrees_gather`, `agrees_readHello` — **reading is what a reassembly does**;
* `agrees_runs` — so are runs of calls, also if each has a source of its own.
-/

namespace SplitHello

namespace Reassembly

/-- **Gathering leaves the message at the front of what is buffered.** -/
theorem buffered_gather (r : Reassembly) (source : Source) (length : Nat)
    (hok : (r.gather source length).result = .ok ()) :
    r.buffered <+: (r.gather source length).state.1.buffered ∧
      length ≤ (r.gather source length).state.1.buffered.length := by
  fun_induction gather r source length with
  | case1 r source hle => exact ⟨List.prefix_rfl, hle⟩
  | case2 r source hle note reply e he => cases hok
  | case3 r source hle note reply header hheader _ ih =>
      obtain ⟨record, -, -, hbuffered⟩ := exists_record_of_readRecord hheader
      obtain ⟨hfront, hlong⟩ := ih hok
      exact ⟨(hbuffered ▸ List.prefix_append _ _ : r.buffered <+: _).trans hfront, hlong⟩

/-- Do what a request asks, with another source if there is one. -/
def performWith (state : Reassembly × Source) (call : Request × Option Source) :
    Reply (Reassembly × Source) Answer :=
  perform (state.1, call.2.getD state.2) call.1

end Reassembly

namespace Guarded

/-- What is held between the records of a source. -/
structure RecordReader where
  /-- What was read past the last record. -/
  pending : Option Block
  /-- The payloads not yet taken up by a message. -/
  buffered : Bytes

namespace RecordReader

open Reassembly (Request Answer)

/-- Nothing is held yet. -/
def new : RecordReader := ⟨none, []⟩

/-- What is held once nothing is pending any more. -/
def dropPending (r : RecordReader) : RecordReader := { r with pending := none }

/-! ## What is done with a reader -/

/-- Take in a record whose header and payload are in `block`. -/
def takeRecord (r : RecordReader) (header : RecordHeader) (block : Block) (source : Source) :
    Option (Reply (RecordReader × Source) (Except ReadError RecordHeader)) := do
  let (rest, record) ← block.splitOff header.totalLength
  let buffered := r.buffered ++ (← (record.seek RecordHeader.size).unread)
  let pending := (rest.map Block.length).getD 0
  return ⟨.ok header, (⟨rest, buffered⟩, source),
    [.note (.appendedPayload buffered.length pending)]⟩

/-- Read one record and append its payload to what is buffered. -/
def readRecord (r : RecordReader) (source : Source) :
    Option (Reply (RecordReader × Source) (Except ReadError RecordHeader)) := do
  match ← (r.pending.getD .empty).fillTo source RecordHeader.size with
  | ⟨some failure, (_, source), journal⟩ =>
      return ⟨.error (.truncatedStream RecordHeader.size failure), (r.dropPending, source), journal⟩
  | ⟨none, (block, source), journal⟩ =>
      match RecordHeader.parse (← block.content) with
      | .error e => return ⟨.error (.notTls e), (r.dropPending, source), journal⟩
      | .ok header =>
          let note := Note.readHeader header.contentType header.version header.payloadLength
          match ← block.fillTo source header.totalLength with
          | ⟨some failure, (_, source), more⟩ =>
              return ⟨.error (.truncatedStream header.totalLength failure),
                (r.dropPending, source), journal ++ .note note :: more⟩
          | ⟨none, (block, source), more⟩ =>
              return (← r.takeRecord header block source).after (journal ++ .note note :: more)

/-- How many bytes are pending or still in the source. -/
def weight (state : RecordReader × Source) : Nat :=
  (state.1.pending.map Block.length).getD 0 + state.2.data.length

/-- Read records until at least `length` bytes are buffered. -/
def gather (turns : Nat) (r : RecordReader) (source : Source) (length : Nat) :
    Option (Reply (RecordReader × Source) (Except ReadError Unit)) :=
  match turns with
  | 0 => none
  | turns + 1 =>
      if length ≤ r.buffered.length then return ⟨.ok (), (r, source), []⟩
      else do
        let note := Note.messageContinues (← minus length r.buffered.length)
        match ← r.readRecord source with
        | ⟨.error e, state, journal⟩ => return ⟨.error e, state, .note note :: journal⟩
        | ⟨.ok _, (r, source), journal⟩ =>
            return (← gather turns r source length).after (.note note :: journal)

/-- Take a message of a length out of what is buffered, and decode it. -/
def takeMessage (r : RecordReader) (source : Source) (length : Nat) :
    Option (Reply (RecordReader × Source) (Except ReadError ClientHello)) := do
  let (message, buffered) ← splitAt r.buffered length
  let state := ({ r with buffered }, source)
  let type ← message[0]?
  if type ≠ ClientHello.messageType then
    return ⟨.error (.notTls (.notClientHello type)), state, []⟩
  else
    let hello ← (parse message).run
    return ⟨hello.mapError .notTls, state, (ClientHello.parseNotes message).map .note⟩

/-- Read records until the message is there of which something is buffered, and decode it. -/
def readMessage (r : RecordReader) (source : Source) :
    Option (Reply (RecordReader × Source) (Except ReadError ClientHello)) :=
  match Reassembly.messageAhead r.buffered with
  | none =>
      let e := ParseError.bufferTooShort ClientHello.messageHeaderLength r.buffered.length
      return ⟨.error (.notTls e), (r, source), []⟩
  | some (_, length) => do
      match ← gather (weight (r, source) + 1) r source length with
      | ⟨.error e, state, journal⟩ => return ⟨.error e, state, journal⟩
      | ⟨.ok _, (r, source), journal⟩ => return (← r.takeMessage source length).after journal

/-- Read records until a whole message is there, and decode it as a client hello. -/
def readHello (r : RecordReader) (source : Source) :
    Option (Reply (RecordReader × Source) (Except ReadError ClientHello)) := do
  match ← r.readRecord source with
  | ⟨.error e, state, journal⟩ => return ⟨.error e, state, journal⟩
  | ⟨.ok _, (r, source), journal⟩ => return (← r.readMessage source).after journal

/-- Do what a request asks. -/
def perform (state : RecordReader × Source) :
    Request → Option (Reply (RecordReader × Source) Answer)
  | .record => return (← state.1.readRecord state.2).map .record
  | .hello => return (← state.1.readHello state.2).map .hello

/-- Do what a request asks, with another source if there is one. -/
def performWith (state : RecordReader × Source) (call : Request × Option Source) :
    Option (Reply (RecordReader × Source) Answer) :=
  perform (state.1, call.2.getD state.2) call.1

/-! ## What a reader stands for -/

/-- A reader holds what a reassembly does. -/
structure StandsFor (r : RecordReader) (r' : Reassembly) : Prop where
  /-- What is pending. -/
  pending : Option.Rel Block.Holds r.pending r'.pending
  /-- What is buffered. -/
  buffered : r.buffered = r'.buffered

/-- A reader and a source stand for a reassembly and the same source. -/
def Stands (state : RecordReader × Source) (state' : Reassembly × Source) : Prop :=
  state.1.StandsFor state'.1 ∧ state.2 = state'.2

variable {r : RecordReader} {r' : Reassembly}

theorem standsFor_new : new.StandsFor .new := ⟨.none, rfl⟩

theorem StandsFor.dropPending (h : r.StandsFor r') : r.dropPending.StandsFor r'.dropPending :=
  ⟨.none, h.buffered⟩

/-- As many bytes are pending. -/
theorem length_pending {pending : Option Block} {pending' : Option Buffer}
    (h : Option.Rel Block.Holds pending pending') :
    (pending.map Block.length).getD 0 = (Buffer.contentOf pending').length := by
  cases h with
  | none => rfl
  | some hblock => exact hblock.length_eq

theorem StandsFor.weight_eq (h : r.StandsFor r') (source : Source) :
    weight (r, source) = Reassembly.weight (r', source) :=
  congrArg (· + source.data.length) (length_pending h.pending)

/-- The blocks at hand hold the same. -/
theorem StandsFor.holds_atHand (h : r.StandsFor r') :
    (r.pending.getD .empty).Holds (r'.pending.getD .empty) := by
  obtain ⟨pending, _⟩ := r
  obtain ⟨pending', _⟩ := r'
  cases h.pending with
  | none => exact Block.holds_empty
  | some hblock => exact hblock

/-! ## One record -/

/-- **What a record carries is sliced out of its block.** -/
theorem agrees_takeRecord (h : r.StandsFor r') (header : RecordHeader) {block : Block}
    {buffer : Buffer} (hblock : block.Holds buffer) (source : Source) :
    Agrees Stands (r.takeRecord header block source) (r'.takeRecord header buffer source) := by
  obtain ⟨rest, record, hsplit, hrest, hrecord⟩ :=
    Block.splitOff_eq_some hblock header.totalLength
  rw [takeRecord, hsplit, Reassembly.takeRecord]
  generalize buffer.cutAt header.totalLength = cut at hrest hrecord ⊢
  obtain ⟨rest', record'⟩ := cut
  simp only [Option.bind_eq_bind, Option.bind_some, (hrecord.seek RecordHeader.size).unread_eq,
    length_pending hrest, h.buffered]
  exact .intro ⟨⟨hrest, rfl⟩, rfl⟩

/-- **Reading a record is what a reassembly does.** -/
theorem agrees_readRecord (h : r.StandsFor r') (source : Source) :
    Agrees Stands (r.readRecord source) (r'.readRecord source) := by
  obtain ⟨failed, ⟨block, between⟩, ⟨buffer, _⟩, journal, hfill, hfill', hblock, rfl⟩ :=
    (Block.agrees_fillTo h.holds_atHand source RecordHeader.size).exists_reply
  rw [readRecord, hfill, Reassembly.readRecord, hfill']
  cases failed with
  | some failure => exact .intro ⟨h.dropPending, rfl⟩
  | none =>
      simp only [Option.bind_eq_bind, Option.bind_some, hblock.content_eq]
      cases RecordHeader.parse buffer.bytes with
      | error e => exact .intro ⟨h.dropPending, rfl⟩
      | ok header =>
          obtain ⟨failed, ⟨block, after⟩, ⟨buffer, _⟩, more, hmore, hmore', hblock, rfl⟩ :=
            (Block.agrees_fillTo hblock between header.totalLength).exists_reply
          dsimp only
          rw [hmore, hmore']
          cases failed with
          | some failure => exact .intro ⟨h.dropPending, rfl⟩
          | none => exact (agrees_takeRecord h header hblock after).after _

/-! ## One hello -/

/-- **Gathering is what a reassembly does**: what is missing is a difference that is there, and
every turn leaves fewer bytes. -/
theorem agrees_gather (r' : Reassembly) (source : Source) (length : Nat) :
    ∀ (r : RecordReader) (turns : Nat), r.StandsFor r' → Reassembly.weight (r', source) < turns →
      Agrees Stands (gather turns r source length) (r'.gather source length) := by
  fun_induction Reassembly.gather r' source length with
  | case1 r' source hle =>
      intro r turns h hturns
      obtain ⟨turns, rfl⟩ := Nat.exists_eq_add_one_of_ne_zero (Nat.ne_zero_of_lt hturns)
      rw [gather, h.buffered, if_pos hle]
      exact .intro ⟨h, rfl⟩
  | case2 r' source hle note reply e he =>
      intro r turns h hturns
      obtain ⟨turns, rfl⟩ := Nat.exists_eq_add_one_of_ne_zero (Nat.ne_zero_of_lt hturns)
      obtain ⟨result, state, state', journal, hread, hread', hstands⟩ :=
        (agrees_readRecord h source).exists_reply
      have hreply : reply = ⟨result, state', journal⟩ := hread'
      obtain rfl : result = .error e := by rw [← he, hreply]
      rw [gather, h.buffered, if_neg hle, minus_eq_some (Nat.le_of_not_le hle), hreply]
      simp only [Option.bind_eq_bind, Option.bind_some, hread]
      exact .intro hstands
  | case3 r' source hle note reply header hheader hless ih =>
      intro r turns h hturns
      obtain ⟨turns, rfl⟩ := Nat.exists_eq_add_one_of_ne_zero (Nat.ne_zero_of_lt hturns)
      obtain ⟨result, ⟨r₁, after⟩, ⟨r₁', _⟩, journal, hread, hread', h₁, rfl⟩ :=
        (agrees_readRecord h source).exists_reply
      have hreply : reply = ⟨result, (r₁', after), journal⟩ := hread'
      obtain rfl : result = .ok header := by rw [← hheader, hreply]
      have hleft : Reassembly.weight (r₁', after) < turns := by
        rw [hread'] at hless
        exact Nat.lt_of_lt_of_le hless (Nat.le_of_lt_succ hturns)
      rw [gather, h.buffered, if_neg hle, minus_eq_some (Nat.le_of_not_le hle)]
      simp only [Option.bind_eq_bind, Option.bind_some, hread]
      rw [hreply] at ih ⊢
      exact (ih r₁ turns h₁ hleft).after _

/-- A message whose header was seen has a type. -/
theorem getElem?_of_messageAhead {front buffered : Bytes} {type : UInt8} {length : Nat}
    (hahead : Reassembly.messageAhead front = some (type, length)) (hfront : front <+: buffered) :
    (buffered.take length)[0]? = some type := by
  obtain ⟨more, rfl⟩ := hfront
  unfold Reassembly.messageAhead at hahead
  split at hahead
  · obtain ⟨rfl, rfl⟩ := Prod.mk.inj (Option.some.inj hahead)
    rw [List.getElem?_take_of_lt (Nat.lt_add_right _ (by decide))]
    rfl
  · cases hahead

/-- **A message that was gathered can be taken out**, and has a type. -/
theorem agrees_takeMessage (h : r.StandsFor r') (source : Source) {front : Bytes} {type : UInt8}
    {length : Nat} (hahead : Reassembly.messageAhead front = some (type, length))
    (hfront : front <+: r'.buffered) (hlong : length ≤ r'.buffered.length) :
    Agrees Stands (r.takeMessage source length) (r'.takeMessage source type length) := by
  rw [takeMessage, Reassembly.takeMessage, h.buffered, splitAt_eq_some hlong]
  simp only [Option.bind_eq_bind, Option.bind_some, getElem?_of_messageAhead hahead hfront,
    run_parse]
  by_cases htype : type ≠ ClientHello.messageType
  · rw [if_pos htype, if_pos htype]
    exact .intro ⟨⟨h.pending, rfl⟩, rfl⟩
  · rw [if_neg htype, if_neg htype]
    exact .intro ⟨⟨h.pending, rfl⟩, rfl⟩

theorem agrees_readMessage (h : r.StandsFor r') (source : Source) :
    Agrees Stands (r.readMessage source) (r'.readMessage source) := by
  rw [readMessage, Reassembly.readMessage, h.buffered]
  cases hahead : Reassembly.messageAhead r'.buffered with
  | none => exact .intro ⟨h, rfl⟩
  | some seen =>
      obtain ⟨type, length⟩ := seen
      have hgathered := r'.buffered_gather source length
      have hturns : Reassembly.weight (r', source) < weight (r, source) + 1 :=
        h.weight_eq source ▸ Nat.lt_succ_self _
      obtain ⟨result, ⟨r₁, after⟩, ⟨r₁', _⟩, journal, hgather, hgather', h₁, rfl⟩ :=
        (agrees_gather r' source length r _ h hturns).exists_reply
      dsimp only
      rw [hgather'] at hgathered ⊢
      rw [hgather]
      cases result with
      | error e => exact .intro ⟨h₁, rfl⟩
      | ok _ =>
          obtain ⟨hfront, hlong⟩ := hgathered rfl
          exact (agrees_takeMessage h₁ after hahead hfront hlong).after journal

/-- **Reading a hello is what a reassembly does.** -/
theorem agrees_readHello (h : r.StandsFor r') (source : Source) :
    Agrees Stands (r.readHello source) (r'.readHello source) := by
  obtain ⟨result, ⟨r₁, after⟩, ⟨r₁', _⟩, journal, hread, hread', h₁, rfl⟩ :=
    (agrees_readRecord h source).exists_reply
  rw [readHello, hread]
  cases result with
  | error e =>
      rw [Reassembly.readHello_of_error hread']
      exact .intro ⟨h₁, rfl⟩
  | ok header =>
      rw [Reassembly.readHello_of_ok hread']
      exact (agrees_readMessage h₁ after).after journal

/-! ## Runs of calls -/

theorem agrees_perform {state : RecordReader × Source} {state' : Reassembly × Source}
    (h : Stands state state') (request : Request) :
    Agrees Stands (perform state request) (Reassembly.perform state' request) := by
  obtain ⟨r, source⟩ := state
  obtain ⟨r', _⟩ := state'
  obtain ⟨h, rfl⟩ := h
  cases request with
  | record => exact (agrees_readRecord h source).map Answer.record
  | hello => exact (agrees_readHello h source).map Answer.hello

/-- **Runs of calls are what a reassembly does**, also if some of them read from another source than
the call before them. -/
theorem agrees_runs (source : Source) (calls : List (Request × Option Source)) :
    Agrees Stands (each performWith (new, source) calls)
      (Reply.each Reassembly.performWith (.new, source) calls) := by
  refine .each (fun state state' call h => ?_) calls ⟨standsFor_new, rfl⟩
  have hcall : Stands (state.1, call.2.getD state.2) (state'.1, call.2.getD state'.2) :=
    ⟨h.1, congrArg call.2.getD h.2⟩
  exact agrees_perform hcall call.1

end RecordReader

/-! ## Records in a byte string -/

/-- The client hello in the records at the start of `data`. -/
def parseRecords (data : Bytes) : Option (Except ParseError ClientHello) := do
  match (← RecordReader.new.readHello (.ofBytes data)).result with
  | .ok hello => return .ok hello
  | .error (.notTls e) => return .error e
  | .error (.truncatedStream need _) => return .error (.bufferTooShort need data.length)

/-- **Parsing records uses no operation outside its domain.** -/
theorem parseRecords_eq_some (data : Bytes) :
    parseRecords data = some (ClientHello.parseRecords data) := by
  obtain ⟨result, _, _, _, hread, hread', -⟩ :=
    (RecordReader.agrees_readHello RecordReader.standsFor_new (.ofBytes data)).exists_reply
  rw [parseRecords, hread, ClientHello.parseRecords, SplitHello.readHello, hread']
  rcases result with (e | ⟨need, failure⟩) | hello <;> rfl

end Guarded

end SplitHello
