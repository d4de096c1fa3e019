import Mathlib.Control.Monad.Basic
import SplitHello.Proofs.Record.Decision
import SplitHello.Proofs.Record.Runs
import SplitHello.Proofs.Record.Stream

/-!
# Proofs/Record/Shortage — what a shortage says of the bytes at hand

An error may say that `need` bytes are needed and `available` are there.  Headers, messages and
readers say so only of fewer bytes than are needed.  Parsing records says how long the whole input
is, but how much is needed at the last of its records alone; behind other records the two numbers do
not speak of the same bytes, and no more need be missing than the second says is there.

* `Record.CutShort` — bytes that end inside a record that others stand ahead of;
* `FlatReader.cutShort_of_readHello` — a hello is cut short where the stream is;
* `shortage_of_parseRecords` — parsing records is short of bytes behind the records that are whole;
* `shortage_of_read` — what each way of reading says when it is short of bytes.
-/

namespace SplitHello

/-! ## What is decoded -/

section Decoded

variable {data : Bytes} {need available : Nat}

/-- A header that is refused for a shortage is short of bytes. -/
theorem RecordHeader.available_lt_of_parse
    (h : parse data = .error (.bufferTooShort need available)) : available < need := by
  by_cases hsize : size ≤ data.length
  · cases ofHeader_of_parse h hsize
  · unfold parse at h
    split at h
    · refine absurd ?_ hsize
      simp [size]
    · obtain ⟨rfl, rfl⟩ := ParseError.bufferTooShort.inj (Except.error.inj h)
      exact Nat.lt_of_not_le hsize

/-- A message that is refused for a shortage is short of bytes. -/
theorem ClientHello.available_lt_of_parse
    (h : parse data = .error (.bufferTooShort need available)) : available < need :=
  (failsBy_parse data _ h).2.2

/-- So is a message of any type. -/
theorem ClientHello.available_lt_of_ofMessage {type : UInt8}
    (h : ofMessage type data = .error (.notTls (.bufferTooShort need available))) :
    available < need := by
  rw [ofMessage] at h
  split at h
  · cases h
  · cases hparse : parse data with
    | ok hello =>
        rw [hparse] at h
        cases h
    | error e =>
        rw [hparse] at h
        obtain rfl : e = .bufferTooShort need available :=
          ReadError.notTls.inj (Except.error.inj h)
        exact available_lt_of_parse hparse

end Decoded

/-! ## What is read -/

namespace Record

variable {data rest : Bytes} {need : Nat}

/-- Bytes are cut short: whole records stand ahead, and behind them they end inside another, which
takes at least `need` bytes. -/
def CutShort (data : Bytes) (need : Nat) : Prop :=
  ∃ (records : List Record) (rest : Bytes), (∀ record ∈ records, record.Admissible) ∧
    data = stream records ++ rest ∧ EndsInside rest need

theorem EndsInside.cutShort (h : EndsInside data need) : CutShort data need :=
  ⟨[], data, fun _ hmem => absurd hmem List.not_mem_nil, rfl, h⟩

/-- What is cut short is so behind one more record. -/
theorem CutShort.afterRecord {record : Record} (hrecord : record.Admissible)
    (h : CutShort rest need) : CutShort (record.encode ++ rest) need := by
  obtain ⟨records, rest, hrecords, rfl, hends⟩ := h
  refine ⟨record :: records, rest, List.forall_mem_cons.mpr ⟨hrecord, hrecords⟩, ?_, hends⟩
  rw [stream_cons, List.append_assoc]

end Record

open Record (EndsInside CutShort)

namespace FlatReader

variable {f : FlatReader} {length need : Nat} {failure : Failure}

theorem cutShort_of_readRecord
    (h : f.readRecord.result = .error (.truncatedStream need failure)) :
    CutShort f.ahead need := by
  obtain ⟨-, hfront, -⟩ := readRecord_of_error h
  exact (Record.front_eq_truncated_iff.mp hfront).1.cutShort

/-- **Gathering is cut short where the stream ends inside a record.** -/
theorem cutShort_of_gather (h : (f.gather length).result = .error (.truncatedStream need failure)) :
    CutShort f.ahead need := by
  fun_induction gather f length with
  | case1 f hle => cases h
  | case2 f hle e he =>
      obtain rfl := Except.error.inj h
      exact cutShort_of_readRecord he
  | case3 f hle header hok _ ih =>
      obtain ⟨record, behind, hrecord, hahead, hread⟩ := exists_record_of_readRecord hok
      have hbehind := ih h
      rw [hread] at hbehind
      exact hahead ▸ hbehind.afterRecord hrecord

/-- So is a message: once it is there, decoding it is never cut short. -/
theorem cutShort_of_readMessage
    (h : f.readMessage.result = .error (.truncatedStream need failure)) :
    CutShort f.ahead need := by
  cases hseen : Reassembly.messageAhead f.buffered with
  | none =>
      rw [readMessage_of_none hseen] at h
      cases h
  | some seen =>
      obtain ⟨type, length⟩ := seen
      cases hgather : (f.gather length).result with
      | error e =>
          rw [readMessage_of_error hseen hgather] at h
          obtain rfl := Except.error.inj h
          exact cutShort_of_gather hgather
      | ok _ =>
          rw [readMessage_of_ok hseen hgather] at h
          cases (failedAtRecord_ofMessage type _).symm.trans
            (congrArg Reassembly.failedAtRecord h)

/-- **Reading a hello is cut short where the stream ends inside a record.** -/
theorem cutShort_of_readHello
    (h : f.readHello.result = .error (.truncatedStream need failure)) :
    CutShort f.ahead need := by
  cases hresult : f.readRecord.result with
  | error e =>
      rw [readHello_of_error hresult] at h
      obtain rfl := Except.error.inj h
      exact cutShort_of_readRecord hresult
  | ok header =>
      obtain ⟨first, behind, hfirst, hahead, hread⟩ := exists_record_of_readRecord hresult
      rw [readHello_of_ok hresult, hread] at h
      exact hahead ▸ (cutShort_of_readMessage h).afterRecord hfirst

/-- **A hello that is refused for a shortage is short of bytes.** -/
theorem available_lt_of_readHello {available : Nat}
    (h : f.readHello.result = .error (.notTls (.bufferTooShort need available))) :
    available < need := by
  rcases f.readHello_cases with
    ⟨e, he, hresult⟩ | ⟨record, rest, -, -, hshort, hread⟩ | ⟨first, later, rest, type, length, hb⟩
  · obtain rfl := Except.error.inj (hresult.symm.trans h)
    cases he
  · rw [hread] at h
    obtain ⟨rfl, rfl⟩ := ParseError.bufferTooShort.inj (ReadError.notTls.inj (Except.error.inj h))
    exact hshort
  · rw [hb.readHello_eq] at h
    exact ClientHello.available_lt_of_ofMessage h

end FlatReader

/-- A reader that refuses a hello for a shortage is short of bytes, whatever it holds already and
whatever the source does. -/
theorem Reassembly.available_lt_of_readHello {r : Reassembly} {source : Source}
    {need available : Nat}
    (h : (r.readHello source).result = .error (.notTls (.bufferTooShort need available))) :
    available < need := by
  have hfollows : Follows (r, source) ⟨r.pendingBytes ++ source.data, r.buffered, [], []⟩ :=
    ⟨rfl, rfl⟩
  have hmirrors := mirrors_readHello hfollows (.inr fun ⟨_, _, ht⟩ => by cases h.symm.trans ht)
  exact FlatReader.available_lt_of_readHello (hmirrors.result.symm.trans h)

/-- **Parsing records is short of bytes behind the records that are whole**, or of those of a
message or of a first record. -/
theorem ClientHello.shortage_of_parseRecords {data : Bytes} {need available : Nat}
    (h : parseRecords data = .error (.bufferTooShort need available)) :
    available < need ∨ available = data.length ∧ ∃ records rest,
      records ≠ [] ∧ (∀ record ∈ records, record.Admissible) ∧
        data = Record.stream records ++ rest ∧ EndsInside rest need := by
  rw [parseRecords, result_readHello_ofBytes] at h
  split at h
  · cases h
  · next e hresult =>
    obtain rfl := Except.error.inj h
    exact .inl (FlatReader.available_lt_of_readHello hresult)
  · next need' failure hresult =>
    obtain ⟨rfl, rfl⟩ := ParseError.bufferTooShort.inj (Except.error.inj h)
    obtain ⟨records, rest, hrecords, hdata, hends⟩ :=
      FlatReader.cutShort_of_readHello hresult
    have hdata : data = Record.stream records ++ rest := hdata
    by_cases hnil : records = []
    · -- nothing stands ahead of what is cut off, so that is the whole input
      rw [hnil] at hdata
      exact .inl (hdata ▸ hends.length_lt)
    · exact .inr ⟨rfl, records, rest, hnil, hrecords, hdata, hends⟩

/-- **A shortage is one of bytes that are missing.**  A header, a message or a reader that says that
it is short of bytes has fewer than it needs; so have records, unless the bytes end behind some of
them inside another: then it is the bytes behind them that are too few. -/
theorem shortage_of_read (data : Bytes) (r : Reassembly) (source : Source) (need available : Nat) :
    (RecordHeader.parse data = .error (.bufferTooShort need available) → available < need) ∧
    (ClientHello.parse data = .error (.bufferTooShort need available) → available < need) ∧
    ((r.readHello source).result = .error (.notTls (.bufferTooShort need available)) →
      available < need) ∧
    (ClientHello.parseRecords data = .error (.bufferTooShort need available) →
      available < need ∨ available = data.length ∧ ∃ records rest,
        records ≠ [] ∧ (∀ record ∈ records, record.Admissible) ∧
          data = Record.stream records ++ rest ∧ rest.length < need) := by
  refine ⟨RecordHeader.available_lt_of_parse, ClientHello.available_lt_of_parse,
    Reassembly.available_lt_of_readHello, fun h => ?_⟩
  refine (ClientHello.shortage_of_parseRecords h).imp_right ?_
  rintro ⟨hlength, records, rest, hne, hrecords, hdata, hends⟩
  exact ⟨hlength, records, rest, hne, hrecords, hdata, hends.length_lt⟩

/-- A record that begins a message of 104 bytes, and the first three bytes of another record. -/
def sampleCutRecords : Bytes := [0x16, 3, 1, 0, 4, 1, 0, 0, 100, 0x16, 3, 1]

/-- A record with half of a message's header, handed out three bytes at once and then one by one. -/
def sampleShort : Source := ⟨[0x16, 3, 1, 0, 2, 1, 0], ⟨[.moves 3], some 1⟩⟩

/-- Each way of reading is short of something: of a header, of a message, of a message's header,
and of the second of two records. -/
theorem shortage_of_read_sample :
    2 < RecordHeader.size ∧ 0 < ClientHello.minLength ∧ 2 < ClientHello.messageHeaderLength ∧
      ClientHello.parseRecords sampleCutRecords = .error (.bufferTooShort RecordHeader.size 12) ∧
      ∃ records rest, records ≠ [] ∧ sampleCutRecords = Record.stream records ++ rest ∧
        rest.length < RecordHeader.size := by
  have hcut : ClientHello.parseRecords sampleCutRecords =
      .error (.bufferTooShort RecordHeader.size 12) := by decide +kernel
  have hreader : (Reassembly.new.readHello sampleShort).result =
      .error (.notTls (.bufferTooShort ClientHello.messageHeaderLength 2)) := by decide +kernel
  refine ⟨(shortage_of_read [0x16, 3] .new sampleShort _ _).1 rfl,
    (shortage_of_read [] .new sampleShort _ _).2.1 rfl,
    (shortage_of_read [] .new sampleShort _ _).2.2.1 hreader, hcut, ?_⟩
  obtain hlt | ⟨-, records, rest, hne, -, hdata, hshort⟩ :=
    (shortage_of_read _ .new sampleShort _ _).2.2.2 hcut
  · exact absurd hlt (by decide)
  · exact ⟨records, rest, hne, hdata, hshort⟩

/-- **Not every shortage that parsing records reports has fewer bytes available than needed.** -/
theorem not_available_lt_of_parseRecords :
    ¬ ∀ (data : Bytes) (need available : Nat),
      ClientHello.parseRecords data = .error (.bufferTooShort need available) →
        available < need := by
  intro h
  have hcut : ClientHello.parseRecords sampleCutRecords =
      .error (.bufferTooShort RecordHeader.size 12) := by decide +kernel
  exact absurd (h _ _ _ hcut) (by decide)

end SplitHello
