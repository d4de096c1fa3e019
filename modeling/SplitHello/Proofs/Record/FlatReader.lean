import SplitHello.Proofs.Record.Front
import SplitHello.Proofs.Record.Message

/-!
# Proofs/Record/FlatReader — reading records with the whole stream at hand

A `FlatReader` does what a reassembly does to a stream of which nothing is withheld: there are no
buffers, no chunks and no calls to a source, only what of the stream is not taken yet and what is
buffered.  It remembers which records and which messages it took.

* `FlatReader.gather_of_needed`, `FlatReader.exists_needed_of_gather` — gathering takes the records
  that are needed, and no more;
* `FlatReader.Brings.readHello_eq` — a message that the stream brings is taken and decoded;
* `FlatReader.readHello_cases` — all that reading a hello comes to.
-/

namespace SplitHello

/-- A reader of records that has the whole stream at hand. -/
structure FlatReader where
  /-- What of the stream is not taken yet. -/
  ahead : Bytes
  /-- The payloads not yet taken up by a message. -/
  buffered : Bytes
  /-- The records taken so far, in order. -/
  records : List Record
  /-- The messages taken so far, in order. -/
  messages : List Bytes

namespace Record

/-- The bytes of records, one after the other. -/
def stream (records : List Record) : Bytes := records.flatMap encode

/-- What records carry, taken together. -/
def carried (records : List Record) : Bytes := records.flatMap payload

@[simp] theorem stream_nil : stream [] = [] := rfl

@[simp] theorem stream_cons (record : Record) (later : List Record) :
    stream (record :: later) = record.encode ++ stream later := rfl

@[simp] theorem stream_append (first second : List Record) :
    stream (first ++ second) = stream first ++ stream second := List.flatMap_append

@[simp] theorem carried_nil : carried [] = [] := rfl

@[simp] theorem carried_cons (record : Record) (later : List Record) :
    carried (record :: later) = record.payload ++ carried later := rfl

@[simp] theorem carried_append (first second : List Record) :
    carried (first ++ second) = carried first ++ carried second := List.flatMap_append

theorem carried_singleton (record : Record) : carried [record] = record.payload :=
  List.append_nil _

/-- Of several records, leaving out the last leaves the first. -/
theorem carried_dropLast_cons (record : Record) {later : List Record} (h : later ≠ []) :
    carried (record :: later).dropLast = record.payload ++ carried later.dropLast := by
  rw [List.dropLast_cons_of_ne_nil h, carried_cons]

end Record

namespace FlatReader

/-! ## What it does -/

/-- A reader at the start of a stream. -/
def start (data : Bytes) : FlatReader := ⟨data, [], [], []⟩

/-- The reader ahead of another stream. -/
def withAhead (f : FlatReader) (ahead : Bytes) : FlatReader := { f with ahead }

/-- The reader once it has taken records, with `rest` behind them. -/
def take (f : FlatReader) (records : List Record) (rest : Bytes) : FlatReader :=
  ⟨rest, f.buffered ++ Record.carried records, f.records ++ records, f.messages⟩

/-- The reader once it has taken a message of a length. -/
def drain (f : FlatReader) (length : Nat) : FlatReader :=
  { f with
    buffered := f.buffered.drop length, messages := f.messages ++ [f.buffered.take length] }

/-- Take the record at the front of the stream.  If there is none, no more than a header is used
up. -/
def readRecord (f : FlatReader) : Reply FlatReader (Except ReadError RecordHeader) :=
  match Record.front f.ahead with
  | .error e => ⟨.error e, f.withAhead (f.ahead.drop RecordHeader.size), []⟩
  | .ok (record, rest) => ⟨.ok record.header, f.take [record] rest, []⟩

variable {f : FlatReader}

/-- Records are taken where they are written. -/
theorem readRecord_eq {record : Record} {rest : Bytes} (hrecord : record.Admissible)
    (hahead : f.ahead = record.encode ++ rest) :
    f.readRecord = ⟨.ok record.header, f.take [record] rest, []⟩ := by
  rw [readRecord, Record.front_eq_ok_iff.mpr ⟨hrecord, hahead⟩]

/-- What is taken is a record that is written there. -/
theorem exists_record_of_readRecord {header : RecordHeader}
    (h : f.readRecord.result = .ok header) :
    ∃ record rest, record.Admissible ∧ f.ahead = record.encode ++ rest ∧
      f.readRecord = ⟨.ok record.header, f.take [record] rest, []⟩ := by
  rw [readRecord] at h
  split at h
  · cases h
  · next record rest hfront =>
    obtain ⟨hrecord, hahead⟩ := Record.front_eq_ok_iff.mp hfront
    exact ⟨record, rest, hrecord, hahead, readRecord_eq hrecord hahead⟩

/-- What fails fails at a record, and nothing is taken. -/
theorem readRecord_of_error {e : ReadError} (h : f.readRecord.result = .error e) :
    e.ofRecord = true ∧ Record.front f.ahead = .error e ∧
      f.readRecord = ⟨.error e, f.withAhead (f.ahead.drop RecordHeader.size), []⟩ := by
  rw [readRecord] at h ⊢
  split at h
  · next e' hfront =>
    obtain rfl := Except.error.inj h
    exact ⟨Record.ofRecord_of_front hfront, hfront, rfl⟩
  · cases h

/-- A record that is taken leaves less of the stream. -/
theorem length_ahead_lt {header : RecordHeader} (h : f.readRecord.result = .ok header) :
    f.readRecord.state.ahead.length < f.ahead.length := by
  obtain ⟨record, rest, -, hahead, hread⟩ := exists_record_of_readRecord h
  have hlength := record.length_encode
  have hfive : RecordHeader.size = 5 := rfl
  rw [hread, hahead, List.length_append]
  change rest.length < _
  omega

/-- Take records until at least `length` bytes are buffered. -/
def gather (f : FlatReader) (length : Nat) : Reply FlatReader (Except ReadError Unit) :=
  if length ≤ f.buffered.length then ⟨.ok (), f, []⟩
  else
    match h : f.readRecord.result with
    | .error e => ⟨.error e, f.readRecord.state, []⟩
    | .ok _ =>
        have := length_ahead_lt h
        gather f.readRecord.state length
  termination_by f.ahead.length

/-- Take records until the message is there of which something is buffered, and take and decode
it. -/
def readMessage (f : FlatReader) : Reply FlatReader (Except ReadError ClientHello) :=
  match Reassembly.messageAhead f.buffered with
  | none =>
      let e := ParseError.bufferTooShort ClientHello.messageHeaderLength f.buffered.length
      ⟨.error (.notTls e), f, []⟩
  | some (type, length) =>
      match f.gather length with
      | ⟨.error e, f, _⟩ => ⟨.error e, f, []⟩
      | ⟨.ok _, f, _⟩ => ⟨ClientHello.ofMessage type (f.buffered.take length), f.drain length, []⟩

/-- Take a record, and then what is missing of a whole message, and take and decode it. -/
def readHello (f : FlatReader) : Reply FlatReader (Except ReadError ClientHello) :=
  match f.readRecord with
  | ⟨.error e, f, _⟩ => ⟨.error e, f, []⟩
  | ⟨.ok _, f, _⟩ => f.readMessage

/-! ## Gathering -/

@[simp] theorem take_nil (f : FlatReader) : f.take [] f.ahead = f := by
  rw [take, Record.carried_nil, List.append_nil, List.append_nil]

/-- Taking one record buffers its payload. -/
theorem buffered_take_singleton (f : FlatReader) (record : Record) (rest : Bytes) :
    (f.take [record] rest).buffered = f.buffered ++ record.payload :=
  congrArg (f.buffered ++ ·) (Record.carried_singleton record)

/-- Taking records buffers the payload of the first and then what the others carry. -/
theorem buffered_take_cons (f : FlatReader) (first : Record) (later : List Record) (rest : Bytes) :
    (f.take (first :: later) rest).buffered =
      f.buffered ++ first.payload ++ Record.carried later := (List.append_assoc ..).symm

@[simp] theorem take_take (f : FlatReader) (first second : List Record) (m rest : Bytes) :
    (f.take first m).take second rest = f.take (first ++ second) rest := by
  simp only [take, Record.carried_append, List.append_assoc]

theorem gather_of_le {length : Nat} (h : length ≤ f.buffered.length) :
    f.gather length = ⟨.ok (), f, []⟩ := by
  rw [gather, if_pos h]

theorem gather_of_error {length : Nat} {e : ReadError} (h : ¬ length ≤ f.buffered.length)
    (he : f.readRecord.result = .error e) :
    f.gather length = ⟨.error e, f.readRecord.state, []⟩ := by
  rw [gather, if_neg h]
  split
  · next e' he' =>
    obtain rfl := Except.error.inj (he.symm.trans he')
    rfl
  · next hok => cases he.symm.trans hok

theorem gather_of_ok {length : Nat} {header : RecordHeader} (h : ¬ length ≤ f.buffered.length)
    (hok : f.readRecord.result = .ok header) :
    f.gather length = f.readRecord.state.gather length := by
  rw [gather, if_neg h]
  split
  · next he => cases he.symm.trans hok
  · rfl

/-- Records that bring what is buffered up to a length, of which none could be left out. -/
structure Needed (buffered : Bytes) (length : Nat) (records : List Record) : Prop where
  /-- They are accepted. -/
  admissible : ∀ record ∈ records, record.Admissible
  /-- They bring enough. -/
  enough : length ≤ (buffered ++ Record.carried records).length
  /-- Without the last of them it would not be enough. -/
  needed : records = [] ∨ (buffered ++ Record.carried records.dropLast).length < length

theorem needed_nil_iff {buffered : Bytes} {length : Nat} :
    Needed buffered length [] ↔ length ≤ buffered.length := by
  refine ⟨fun h => ?_, fun h => ⟨fun _ hmem => absurd hmem List.not_mem_nil, ?_, .inl rfl⟩⟩
  · have henough := h.enough
    rwa [Record.carried_nil, List.append_nil] at henough
  · rwa [Record.carried_nil, List.append_nil]

theorem needed_cons_iff {buffered : Bytes} {length : Nat} {record : Record} {later : List Record} :
    Needed buffered length (record :: later) ↔ ¬ length ≤ buffered.length ∧ record.Admissible ∧
      Needed (buffered ++ record.payload) length later := by
  have hcarried : buffered ++ Record.carried (record :: later) =
      buffered ++ record.payload ++ Record.carried later := (List.append_assoc ..).symm
  have hlast : later ≠ [] → buffered ++ Record.carried (record :: later).dropLast =
      buffered ++ record.payload ++ Record.carried later.dropLast := fun hne => by
    rw [Record.carried_dropLast_cons record hne, List.append_assoc]
  constructor
  · intro h
    obtain ⟨hrecord, hlater⟩ := List.forall_mem_cons.mp h.admissible
    have hneeded := h.needed.resolve_left (List.cons_ne_nil _ _)
    have hshort := Nat.lt_of_le_of_lt (List.prefix_append buffered _).length_le hneeded
    refine ⟨Nat.not_le.mpr hshort, hrecord, hlater, hcarried ▸ h.enough, ?_⟩
    by_cases hne : later = []
    · exact .inl hne
    · exact .inr (hlast hne ▸ hneeded)
  · rintro ⟨hle, hrecord, h⟩
    refine ⟨List.forall_mem_cons.mpr ⟨hrecord, h.admissible⟩, hcarried.symm ▸ h.enough, .inr ?_⟩
    by_cases hne : later = []
    · rw [hne, List.dropLast_singleton, Record.carried_nil, List.append_nil]
      exact Nat.lt_of_not_le hle
    · rw [hlast hne]
      exact h.needed.resolve_left hne

/-- **Gathering takes the records that are needed**, where they are written. -/
theorem gather_of_needed {length : Nat} {records : List Record} {rest : Bytes}
    (h : Needed f.buffered length records) (hahead : f.ahead = Record.stream records ++ rest) :
    f.gather length = ⟨.ok (), f.take records rest, []⟩ := by
  induction records generalizing f with
  | nil =>
      obtain rfl : f.ahead = rest := hahead
      rw [gather_of_le (needed_nil_iff.mp h), take_nil]
  | cons record later ih =>
      obtain ⟨hle, hrecord, hlater⟩ := needed_cons_iff.mp h
      rw [Record.stream_cons, List.append_assoc] at hahead
      have hread := readRecord_eq hrecord hahead
      rw [gather_of_ok hle (congrArg Reply.result hread), hread, ih ?_ rfl, take_take]
      · rfl
      · rwa [buffered_take_singleton]

/-- **What gathering takes are needed records that are written there.** -/
theorem exists_needed_of_gather {length : Nat} (h : (f.gather length).result = .ok ()) :
    ∃ records rest, Needed f.buffered length records ∧
      f.ahead = Record.stream records ++ rest := by
  fun_induction gather f length with
  | case1 f hle => exact ⟨[], f.ahead, needed_nil_iff.mpr hle, rfl⟩
  | case2 f hle e he => cases h
  | case3 f hle header hok _ ih =>
      obtain ⟨record, rest, hrecord, hahead, hread⟩ := exists_record_of_readRecord hok
      obtain ⟨later, rest', hneeded, hlater⟩ := ih h
      rw [hread] at hneeded hlater
      refine ⟨record :: later, rest', needed_cons_iff.mpr ⟨hle, hrecord, ?_⟩, ?_⟩
      · rwa [buffered_take_singleton] at hneeded
      · rw [Record.stream_cons, List.append_assoc, hahead]
        exact congrArg (record.encode ++ ·) hlater

/-- What gathering fails at it fails at a record. -/
theorem ofRecord_of_gather {length : Nat} {e : ReadError}
    (h : (f.gather length).result = .error e) : e.ofRecord = true := by
  fun_induction gather f length with
  | case1 => cases h
  | case2 f hle e' he =>
      obtain rfl := Except.error.inj h
      exact (readRecord_of_error he).1
  | case3 f hle header hok _ ih => exact ih h

/-! ## Reading a hello -/

theorem readMessage_of_none (h : Reassembly.messageAhead f.buffered = none) :
    f.readMessage = ⟨.error (.notTls
      (.bufferTooShort ClientHello.messageHeaderLength f.buffered.length)), f, []⟩ := by
  rw [readMessage, h]

theorem readMessage_of_error {type : UInt8} {length : Nat} {e : ReadError}
    (h : Reassembly.messageAhead f.buffered = some (type, length))
    (he : (f.gather length).result = .error e) :
    f.readMessage = ⟨.error e, (f.gather length).state, []⟩ := by
  rw [readMessage, h]
  dsimp only
  split
  · next hgather =>
    rw [hgather] at he ⊢
    obtain rfl := Except.error.inj he
    rfl
  · next hgather =>
    rw [hgather] at he
    cases he

theorem readMessage_of_ok {type : UInt8} {length : Nat}
    (h : Reassembly.messageAhead f.buffered = some (type, length))
    (hok : (f.gather length).result = .ok ()) :
    f.readMessage = ⟨ClientHello.ofMessage type ((f.gather length).state.buffered.take length),
      (f.gather length).state.drain length, []⟩ := by
  rw [readMessage, h]
  dsimp only
  split
  · next hgather =>
    rw [hgather] at hok
    cases hok
  · next hgather => rw [hgather]

theorem readHello_of_error {e : ReadError} (h : f.readRecord.result = .error e) :
    f.readHello = ⟨.error e, f.readRecord.state, []⟩ := by
  obtain ⟨-, -, hread⟩ := readRecord_of_error h
  rw [readHello, hread]

theorem readHello_of_ok {header : RecordHeader} (h : f.readRecord.result = .ok header) :
    f.readHello = f.readRecord.state.readMessage := by
  obtain ⟨record, rest, -, -, hread⟩ := exists_record_of_readRecord h
  rw [readHello, hread]

/-- Reading a hello takes a message off the stream: the first record brings its header, and the
records behind it are those that are needed. -/
structure Brings (f : FlatReader) (first : Record) (later : List Record) (rest : Bytes)
    (type : UInt8) (length : Nat) : Prop where
  /-- The first record is accepted. -/
  admissible : first.Admissible
  /-- The records are at the front of the stream. -/
  ahead : f.ahead = Record.stream (first :: later) ++ rest
  /-- The first record brings the header of the message. -/
  header : Reassembly.messageAhead (f.buffered ++ first.payload) = some (type, length)
  /-- The others bring what is missing of it. -/
  needed : Needed (f.buffered ++ first.payload) length later

/-- What the stream brings is a whole message. -/
theorem Brings.exists_message {first : Record} {later : List Record} {rest : Bytes} {type : UInt8}
    {length : Nat} (h : Brings f first later rest type length) :
    ∃ message : HandshakeMessage, message.type = type ∧ message.encode.length = length ∧
      (f.take (first :: later) rest).buffered.take length = message.encode := by
  rw [buffered_take_cons]
  obtain ⟨message, htype, htake⟩ := exists_message_of_messageAhead
    (Reassembly.messageAhead_append h.header (Record.carried later)) h.needed.enough
  exact ⟨message, htype, by rw [← htake, List.length_take_of_le h.needed.enough], htake⟩

/-- **A message that the stream brings is taken and decoded.** -/
theorem Brings.readHello_eq {first : Record} {later : List Record} {rest : Bytes} {type : UInt8}
    {length : Nat} (h : Brings f first later rest type length) :
    f.readHello = ⟨ClientHello.ofMessage type ((f.take (first :: later) rest).buffered.take length),
      (f.take (first :: later) rest).drain length, []⟩ := by
  have hahead := h.ahead
  rw [Record.stream_cons, List.append_assoc] at hahead
  have hgather : (f.take [first] (Record.stream later ++ rest)).gather length =
      ⟨.ok (), f.take (first :: later) rest, []⟩ := by
    rw [gather_of_needed ?_ rfl, take_take]
    · rfl
    · rw [buffered_take_singleton]
      exact h.needed
  have hheader : Reassembly.messageAhead
      (f.take [first] (Record.stream later ++ rest)).buffered = some (type, length) := by
    rw [buffered_take_singleton]
    exact h.header
  rw [readHello, readRecord_eq h.admissible hahead]
  dsimp only
  rw [readMessage_of_ok hheader (congrArg Reply.result hgather), hgather]

/-- **All that reading a hello comes to**: it fails at a record; or the first record does not bring
the header of a message; or the stream brings a message. -/
theorem readHello_cases (f : FlatReader) :
    (∃ e, e.ofRecord = true ∧ f.readHello.result = .error e) ∨
    (∃ record rest, record.Admissible ∧ f.ahead = record.encode ++ rest ∧
      (f.take [record] rest).buffered.length < ClientHello.messageHeaderLength ∧
      f.readHello = ⟨.error (.notTls (.bufferTooShort ClientHello.messageHeaderLength
        (f.take [record] rest).buffered.length)), f.take [record] rest, []⟩) ∨
    ∃ first later rest type length, Brings f first later rest type length := by
  cases hresult : f.readRecord.result with
  | error e =>
      exact .inl ⟨e, (readRecord_of_error hresult).1, by rw [readHello_of_error hresult]⟩
  | ok header =>
      obtain ⟨first, rest, hrecord, hahead, hread⟩ := exists_record_of_readRecord hresult
      rw [readHello_of_ok hresult, hread]
      cases hseen : Reassembly.messageAhead (f.take [first] rest).buffered with
      | none =>
          have hshort := Reassembly.messageAhead_eq_none_iff.mp hseen
          exact .inr (.inl ⟨first, rest, hrecord, hahead, hshort, readMessage_of_none hseen⟩)
      | some seen =>
          obtain ⟨type, length⟩ := seen
          cases hgather : ((f.take [first] rest).gather length).result with
          | error e =>
              exact .inl ⟨e, ofRecord_of_gather hgather, by rw [readMessage_of_error hseen hgather]⟩
          | ok _ =>
              obtain ⟨later, rest', hneeded, hlater⟩ := exists_needed_of_gather hgather
              rw [buffered_take_singleton] at hneeded hseen
              refine .inr (.inr ⟨first, later, rest', type, length, hrecord, ?_, hseen, hneeded⟩)
              rw [Record.stream_cons, List.append_assoc, hahead]
              exact congrArg (first.encode ++ ·) hlater

end FlatReader

end SplitHello
