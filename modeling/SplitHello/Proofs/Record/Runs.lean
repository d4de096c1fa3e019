import SplitHello.Proofs.Hello.Faults
import SplitHello.Proofs.Record.Carrying

/-!
# Proofs/Record/Runs — runs of calls on one reassembly

A reassembly may be asked for records and for hellos in any order.  Up to the first call that fails
at a record, it answers as a flat reader does, so in particular chunks do not matter; and what the
source has handed out is accounted for.

* `FlatReader.failedAtRecord_readHello_iff` — when reading a hello fails at a record;
* `FlatReader.Accounts.perform` — a call that does not fail at a record leaves the stream accounted
  for;
* `follows_each` — so long as no call fails at a record, a reassembly follows a flat reader;
* `perform_of_handsOut` — two runs over sources that hand out the same agree.
-/

namespace SplitHello

namespace Reassembly

/-- What can be asked of a reassembly. -/
inductive Request where
  /-- To take the next record in. -/
  | record
  /-- To take records in until a whole message is there, and decode it. -/
  | hello

/-- What a reassembly answers to a request. -/
inductive Answer where
  | record (result : Except ReadError RecordHeader)
  | hello (result : Except ReadError ClientHello)

/-- Whether a request failed at a record. -/
def Answer.failedAtRecord : Answer → Bool
  | record result => Reassembly.failedAtRecord result
  | hello result => Reassembly.failedAtRecord result

/-- Do what a request asks. -/
def perform (state : Reassembly × Source) : Request → Reply (Reassembly × Source) Answer
  | .record => (state.1.readRecord state.2).map .record
  | .hello => (state.1.readHello state.2).map .hello

end Reassembly

/-! ## The stream is accounted for -/

namespace FlatReader

open Reassembly (Request Answer failedAtRecord)

/-- Do what a request asks. -/
def perform (f : FlatReader) : Request → Reply FlatReader Answer
  | .record => f.readRecord.map .record
  | .hello => f.readHello.map .hello

/-- The records and the messages that a reader took account for the stream. -/
structure Accounts (data : Bytes) (f : FlatReader) : Prop where
  /-- The records are accepted ones. -/
  admissible : ∀ record ∈ f.records, record.Admissible
  /-- They and what is not taken yet are the stream. -/
  stream : data = Record.stream f.records ++ f.ahead
  /-- What they carried is in the messages, or still buffered. -/
  carried : Record.carried f.records = f.messages.flatten ++ f.buffered
  /-- The messages are whole. -/
  messages : ∀ bytes ∈ f.messages, ∃ message : HandshakeMessage, message.encode = bytes

variable {data rest : Bytes} {f : FlatReader} {records : List Record} {length : Nat}

theorem accounts_start (data : Bytes) : Accounts data (start data) where
  admissible _ h := absurd h List.not_mem_nil
  stream := rfl
  carried := rfl
  messages _ h := absurd h List.not_mem_nil

/-- Records that are taken are accounted for. -/
theorem Accounts.take (h : Accounts data f) (hrecords : ∀ record ∈ records, record.Admissible)
    (hahead : f.ahead = Record.stream records ++ rest) : Accounts data (f.take records rest) where
  admissible := List.forall_mem_append.mpr ⟨h.admissible, hrecords⟩
  stream := by
    change data = Record.stream (f.records ++ records) ++ rest
    rw [Record.stream_append, List.append_assoc, ← hahead]
    exact h.stream
  carried := by
    change Record.carried (f.records ++ records) =
      f.messages.flatten ++ (f.buffered ++ Record.carried records)
    rw [Record.carried_append, h.carried, List.append_assoc]
  messages := h.messages

/-- A message that is taken is accounted for. -/
theorem Accounts.drain (h : Accounts data f)
    (hmessage : ∃ message : HandshakeMessage, message.encode = f.buffered.take length) :
    Accounts data (f.drain length) where
  admissible := h.admissible
  stream := h.stream
  carried := by
    change Record.carried f.records =
      (f.messages ++ [f.buffered.take length]).flatten ++ f.buffered.drop length
    rw [List.flatten_append, List.flatten_singleton, List.append_assoc, List.take_append_drop]
    exact h.carried
  messages := List.forall_mem_append.mpr ⟨h.messages, List.forall_mem_singleton.mpr hmessage⟩

/-- Decoding a message does not fail at a record. -/
theorem failedAtRecord_ofMessage (type : UInt8) (message : Bytes) :
    failedAtRecord (ClientHello.ofMessage type message) = false := by
  rw [ClientHello.ofMessage]
  split
  · rfl
  · cases hparse : ClientHello.parse message with
    | ok hello => rfl
    | error e =>
        have hfault := ClientHello.failsBy_parse message e hparse
        cases e with
        | notHandshakeRecord | sslv2Handshake | unsupportedRecordVersion => exact hfault.elim
        | _ => rfl

/-- **Reading a hello fails at a record unless a record is taken that is too short, or a whole
message.** -/
theorem failedAtRecord_readHello_iff (f : FlatReader) :
    failedAtRecord f.readHello.result = false ↔
      (∃ record rest, record.Admissible ∧ f.ahead = record.encode ++ rest ∧
        f.readHello = ⟨.error (.notTls (.bufferTooShort ClientHello.messageHeaderLength
          (f.take [record] rest).buffered.length)), f.take [record] rest, []⟩) ∨
      ∃ first later rest type length, Brings f first later rest type length := by
  constructor
  · intro hok
    rcases f.readHello_cases with
      ⟨e, he, hresult⟩ | ⟨record, rest, hrecord, hahead, -, hread⟩ | hbrings
    · rw [hresult] at hok
      exact absurd (he.symm.trans hok) Bool.noConfusion
    · exact .inl ⟨record, rest, hrecord, hahead, hread⟩
    · exact .inr hbrings
  · rintro (⟨record, rest, -, -, hread⟩ | ⟨first, later, rest, type, length, hbrings⟩)
    · rw [hread]
      rfl
    · rw [hbrings.readHello_eq]
      exact failedAtRecord_ofMessage type _

theorem Accounts.readRecord (h : Accounts data f)
    (hok : failedAtRecord f.readRecord.result = false) : Accounts data f.readRecord.state := by
  cases hresult : f.readRecord.result with
  | error e =>
      rw [hresult] at hok
      exact absurd ((readRecord_of_error hresult).1.symm.trans hok) Bool.noConfusion
  | ok header =>
      obtain ⟨record, rest, hrecord, hahead, hread⟩ := exists_record_of_readRecord hresult
      rw [hread]
      refine h.take (List.forall_mem_singleton.mpr hrecord) ?_
      rwa [Record.stream_cons, Record.stream_nil, List.append_nil]

theorem Accounts.readHello (h : Accounts data f)
    (hok : failedAtRecord f.readHello.result = false) : Accounts data f.readHello.state := by
  rcases f.failedAtRecord_readHello_iff.mp hok with
    ⟨record, rest, hrecord, hahead, hread⟩ | ⟨first, later, rest, type, length, hbrings⟩
  · rw [hread]
    refine h.take (List.forall_mem_singleton.mpr hrecord) ?_
    rwa [Record.stream_cons, Record.stream_nil, List.append_nil]
  · obtain ⟨message, -, -, htake⟩ := hbrings.exists_message
    rw [hbrings.readHello_eq]
    refine (h.take (List.forall_mem_cons.mpr ?_) hbrings.ahead).drain ⟨message, htake.symm⟩
    exact ⟨hbrings.admissible, hbrings.needed.admissible⟩

/-- **A call that does not fail at a record leaves the stream accounted for.** -/
theorem Accounts.perform (h : Accounts data f) {request : Request}
    (hok : (f.perform request).result.failedAtRecord = false) :
    Accounts data (f.perform request).state := by
  cases request with
  | record => exact h.readRecord hok
  | hello => exact h.readHello hok

/-- So does a run of such calls. -/
theorem Accounts.each (h : Accounts data f) {requests : List Request}
    (hok : ∀ answer ∈ (Reply.each FlatReader.perform f requests).result,
      answer.failedAtRecord = false) :
    Accounts data (Reply.each FlatReader.perform f requests).state := by
  induction requests generalizing f with
  | nil => exact h
  | cons request later ih =>
      obtain ⟨hfirst, hlater⟩ := List.forall_mem_cons.mp hok
      exact ih (h.perform hfirst) hlater

end FlatReader

/-! ## Runs -/

namespace Reassembly

variable {state : Reassembly × Source} {f : FlatReader}

/-- **A call on a reassembly does what it does on a flat reader.** -/
theorem mirrors_perform (hf : Follows state f) (hs : state.2.script.Steady) (request : Request) :
    (perform state request).result = (f.perform request).result ∧
      (perform state request).state.1.buffered = (f.perform request).state.buffered ∧
      ((perform state request).result.failedAtRecord = false →
        Follows (perform state request).state (f.perform request).state) := by
  cases request with
  | record =>
      have hread := mirrors_readRecord hf (.inl hs)
      exact ⟨congrArg Answer.record hread.result, hread.buffered, hread.follows⟩
  | hello =>
      have hread := mirrors_readHello hf (.inl hs)
      exact ⟨congrArg Answer.hello hread.result, hread.buffered, hread.follows⟩

theorem steady_perform (hs : state.2.script.Steady) (request : Request) :
    (perform state request).state.2.script.Steady := by
  cases request with
  | record => exact steady_readRecord hs state.1
  | hello => exact steady_readHello hs state.1

/-- None of these answers is that of a call that failed at a record. -/
def NoneFails (answers : List Answer) : Prop :=
  ∀ answer ∈ answers, answer.failedAtRecord = false

/-- **So long as no call fails at a record, a reassembly follows a flat reader**, whichever of the
two the calls do not fail on. -/
theorem follows_each (hf : Follows state f) (hs : state.2.script.Steady) {requests : List Request}
    (hok : NoneFails (Reply.each perform state requests).result ∨
      NoneFails (Reply.each FlatReader.perform f requests).result) :
    (Reply.each perform state requests).result =
        (Reply.each FlatReader.perform f requests).result ∧
      Follows (Reply.each perform state requests).state
        (Reply.each FlatReader.perform f requests).state ∧
      (Reply.each perform state requests).state.2.script.Steady := by
  induction requests generalizing state f with
  | nil => exact ⟨rfl, hf, hs⟩
  | cons request later ih =>
      obtain ⟨hresult, -, hfollows⟩ := mirrors_perform hf hs request
      have hsplit := hok.imp List.forall_mem_cons.mp List.forall_mem_cons.mp
      have hfirst := hsplit.elim And.left fun h => hresult ▸ h.1
      obtain ⟨hresults, hend⟩ := ih (hfollows hfirst) (steady_perform hs request)
        (hsplit.imp And.right And.right)
      refine ⟨?_, hend⟩
      rw [Reply.result_each_cons, Reply.result_each_cons, hresult, hresults]

/-- What a reassembly and its source hold is what records and messages that were taken leave of a
stream. -/
structure Holds (data : Bytes) (records : List Record) (messages : List Bytes)
    (state : Reassembly × Source) : Prop where
  /-- The records are accepted ones. -/
  admissible : ∀ record ∈ records, record.Admissible
  /-- What the source has handed out is these records and then what is pending. -/
  delivered : data = Record.stream records ++ state.1.pendingBytes ++ state.2.data
  /-- What the records carried is these messages and then what is buffered. -/
  carried : Record.carried records = messages.flatten ++ state.1.buffered
  /-- The messages are whole. -/
  messages : ∀ bytes ∈ messages, ∃ message : HandshakeMessage, message.encode = bytes

/-- What is accounted for by a flat reader is held by a reassembly that follows it. -/
theorem Follows.holds {data : Bytes} (hf : Follows state f) (h : f.Accounts data) :
    Holds data f.records f.messages state where
  admissible := h.admissible
  delivered := by rw [List.append_assoc, hf.ahead, ← h.stream]
  carried := by rw [hf.buffered, h.carried]
  messages := h.messages

variable {data : Bytes} {source : Source} {earlier : List Request}

/-- **A run does what it does on a flat reader, up to and including the first call that fails at a
record**, and until then what the source has handed out is accounted for. -/
theorem perform_eq_flat (hsource : source.HandsOut data)
    (hearlier : NoneFails (Reply.each perform (new, source) earlier).result ∨
      NoneFails (Reply.each FlatReader.perform (.start data) earlier).result) (request : Request) :
    let run := Reply.each perform (new, source) earlier
    let flat := Reply.each FlatReader.perform (.start data) earlier
    run.result = flat.result ∧ run.state.1.buffered = flat.state.buffered ∧
      Holds data flat.state.records flat.state.messages run.state ∧
      (perform run.state request).result = (flat.state.perform request).result ∧
      (perform run.state request).state.1.buffered =
        (flat.state.perform request).state.buffered := by
  intro run flat
  have hstart := follows_new source
  rw [hsource.data_eq] at hstart
  obtain ⟨hresults, hfollows, hsteady⟩ := follows_each hstart hsource.steady hearlier
  obtain ⟨hresult, hbuffered, -⟩ := mirrors_perform hfollows hsteady request
  have hflat : NoneFails flat.result := hearlier.elim (fun h => hresults ▸ h) id
  have haccounts := (FlatReader.accounts_start data).each hflat
  exact ⟨hresults, hfollows.buffered, hfollows.holds haccounts, hresult, hbuffered⟩

/-- **Chunks do not matter.**  Two runs of the same calls over sources that hand out the same bytes
answer the same and leave the same buffered, up to and including the first call that fails at a
record; and until then each holds what the records and the messages leave that a flat reader takes
off the bytes, which answers the same as well. -/
theorem perform_of_handsOut {first second : Source} (hfirst : first.HandsOut data)
    (hsecond : second.HandsOut data)
    (hearlier : ∀ answer ∈ (Reply.each perform (new, first) earlier).result,
      answer.failedAtRecord = false) (request : Request) :
    let one := Reply.each perform (new, first) earlier
    let two := Reply.each perform (new, second) earlier
    let flat := Reply.each FlatReader.perform (.start data) earlier
    (one.result = two.result ∧ one.state.1.buffered = two.state.1.buffered) ∧
      ((perform one.state request).result = (perform two.state request).result ∧
        (perform one.state request).state.1.buffered =
          (perform two.state request).state.1.buffered) ∧
      one.result = flat.result ∧
      Holds data flat.state.records flat.state.messages one.state ∧
      Holds data flat.state.records flat.state.messages two.state := by
  intro one two flat
  obtain ⟨hone, hbuffered₁, hholds₁, hnext₁, hleft₁⟩ :=
    perform_eq_flat hfirst (.inl hearlier) request
  obtain ⟨htwo, hbuffered₂, hholds₂, hnext₂, hleft₂⟩ :=
    perform_eq_flat hsecond (.inr fun answer h => hearlier answer (hone ▸ h)) request
  exact ⟨⟨hone.trans htwo.symm, hbuffered₁.trans hbuffered₂.symm⟩,
    ⟨hnext₁.trans hnext₂.symm, hleft₁.trans hleft₂.symm⟩, hone, hholds₁, hholds₂⟩

/-- The sample records, a record that completes the message that they begin, and two more bytes. -/
def sampleStream : Bytes :=
  Record.stream (sampleRecords ++ [⟨0x0301, [1, 0xff, 7]⟩]) ++ [0x17, 3]

/-- These bytes in chunks of three, four and then five bytes, with two interruptions. -/
def sampleStreamChunks : Source := { sampleChunks with data := sampleStream }

/-- A hello is read, then a message that is none, and then the stream ends inside a header, whether
the bytes come at once or in small chunks. -/
theorem perform_of_handsOut_sample :
    let one := Reply.each perform (new, sampleStreamChunks) [.hello, .hello]
    let two := Reply.each perform (new, .ofBytes sampleStream) [.hello, .hello]
    one.result = two.result ∧ one.state.1.buffered = [7] ∧ two.state.1.buffered = [7] ∧
      (perform one.state .record).result = (perform two.state .record).result ∧
      (perform two.state .record).result.failedAtRecord = true := by
  intro one two
  have hfirst : sampleStreamChunks.HandsOut sampleStream := ⟨rfl, by decide, by decide⟩
  have hearlier : one.result.all (fun answer => !answer.failedAtRecord) = true := by
    decide +kernel
  have hone : one.state.1.buffered = [7] := by decide +kernel
  have hlast : (perform one.state .record).result.failedAtRecord = true := by decide +kernel
  obtain ⟨⟨hresults, hbuffered⟩, ⟨hnext, -⟩, -⟩ :=
    perform_of_handsOut hfirst (Source.handsOut_ofBytes sampleStream)
      (fun answer h => by simpa using List.all_eq_true.mp hearlier answer h) .record
  exact ⟨hresults, hone, hbuffered ▸ hone, hnext, hnext ▸ hlast⟩

end Reassembly

end SplitHello
