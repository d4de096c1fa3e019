import SplitHello.Proofs.Record.Carrying

/-!
# Proofs/Record/Decision — where reading a hello is decided

A call that is not cut short looks no further than the part of the stream that it uses, so nothing
behind that part changes its answer.  Among the fronts of a stream on which reading a hello is not
cut short there is a shortest one; it is used whole, and there the answer is decided.

* `FlatReader.exists_uses_readHello` — a call that is not cut short looks at what it uses;
* `readHello_decided_at` — no front shorter than the deciding one is accepted or refused, and no
  byte behind it changes the answer.
-/

namespace SplitHello

open Reassembly (Truncated)

namespace FlatReader

variable {f : FlatReader} {α : Type} {length : Nat}

/-- Of what is ahead of a reader, a call looks only at the part `used`, and it leaves the rest. -/
structure Uses (call : FlatReader → Reply FlatReader (Except ReadError α)) (f : FlatReader)
    (used rest : Bytes) : Prop where
  /-- What is used is at the front. -/
  ahead : f.ahead = used ++ rest
  /-- With anything else behind it, the call does the same. -/
  same : ∀ more, call (f.withAhead (used ++ more)) = (call f).within (·.withAhead more)

/-- With anything else behind what it uses, a call answers the same. -/
theorem Uses.result_eq {call : FlatReader → Reply FlatReader (Except ReadError α)}
    {used rest : Bytes} (h : Uses call f used rest) (more : Bytes) :
    (call (f.withAhead (used ++ more))).result = (call f).result := by
  rw [h.same]
  rfl

/-- What a call does once another is done, with no look at what is ahead, looks no further. -/
theorem Uses.andThen {β : Type} {first : FlatReader → Reply FlatReader (Except ReadError β)}
    {call : FlatReader → Reply FlatReader (Except ReadError α)} {used rest : Bytes}
    (h : Uses first f used rest) (finish : FlatReader → Reply FlatReader (Except ReadError α))
    (hfinish : ∀ g more, finish (g.withAhead more) = (finish g).within (·.withAhead more))
    (hcall : ∀ ahead, (first (f.withAhead ahead)).result = (first f).result →
      call (f.withAhead ahead) = finish (first (f.withAhead ahead)).state) :
    Uses call f used rest where
  ahead := h.ahead
  same more := by
    have hown : call f = finish (first f).state := hcall f.ahead rfl
    rw [hcall _ (h.result_eq more), h.same more, hown]
    exact hfinish _ more

/-- A call that takes a record and then does what another does looks at the record and at what the
other looks at. -/
theorem Uses.afterRecord {call next : FlatReader → Reply FlatReader (Except ReadError α)}
    {record : Record} {used behind rest : Bytes} (hahead : f.ahead = record.encode ++ behind)
    (h : Uses next (f.take [record] behind) used rest)
    (hcall : ∀ ahead,
      call (f.withAhead (record.encode ++ ahead)) = next (f.take [record] ahead)) :
    Uses call f (record.encode ++ used) rest where
  ahead := by
    rw [hahead, List.append_assoc]
    exact congrArg (record.encode ++ ·) h.ahead
  same more := by
    have hown : call f = next (f.take [record] behind) := by
      rw [← hcall behind, ← hahead]
      rfl
    rw [List.append_assoc, hcall, hown]
    exact h.same more

/-! ## Records -/

/-- A call that fails at the front of the stream uses up a header. -/
theorem readRecord_of_front {e : ReadError} (h : Record.front f.ahead = .error e) :
    f.readRecord = ⟨.error e, f.withAhead (f.ahead.drop RecordHeader.size), []⟩ := by
  rw [readRecord, h]

/-- A record that is taken is what is used. -/
theorem uses_readRecord_of_ok {record : Record} {rest : Bytes} (hrecord : record.Admissible)
    (hahead : f.ahead = record.encode ++ rest) : Uses readRecord f record.encode rest where
  ahead := hahead
  same more := by
    rw [readRecord_eq hrecord hahead]
    exact readRecord_eq hrecord rfl

/-- A header that is refused is what is used. -/
theorem uses_readRecord_of_refused {e : ParseError}
    (h : Record.front f.ahead = .error (.notTls e)) :
    Uses readRecord f (f.ahead.take RecordHeader.size) (f.ahead.drop RecordHeader.size) where
  ahead := (List.take_append_drop ..).symm
  same more := by
    have hleft : (f.ahead.take RecordHeader.size ++ more).drop RecordHeader.size = more :=
      List.drop_left' (List.length_take_of_le (Record.size_le_of_front h).1)
    have hmore : (f.withAhead (f.ahead.take RecordHeader.size ++ more)).readRecord =
        ⟨.error (.notTls e), f.withAhead ((f.ahead.take RecordHeader.size ++ more).drop
          RecordHeader.size), []⟩ := readRecord_of_front (Record.front_eq_notTls h more)
    rw [readRecord_of_front h, hmore, hleft]
    rfl

/-- **Reading a record looks at the record, or at the header that it refuses.** -/
theorem exists_uses_readRecord (h : ¬ Truncated f.readRecord.result) :
    ∃ used rest, Uses readRecord f used rest := by
  cases hresult : f.readRecord.result with
  | ok header =>
      obtain ⟨record, rest, hrecord, hahead, -⟩ := exists_record_of_readRecord hresult
      exact ⟨_, _, uses_readRecord_of_ok hrecord hahead⟩
  | error e =>
      obtain ⟨-, hfront, -⟩ := readRecord_of_error hresult
      cases e with
      | truncatedStream need failure => exact absurd ⟨need, failure, hresult⟩ h
      | notTls e => exact ⟨_, _, uses_readRecord_of_refused hfront⟩

/-- **Gathering looks at the records, and at a header that it refuses.** -/
theorem exists_uses_gather (h : ¬ Truncated (f.gather length).result) :
    ∃ used rest, Uses (·.gather length) f used rest := by
  fun_induction gather f length with
  | case1 f hle =>
      refine ⟨[], f.ahead, rfl, fun more => ?_⟩
      rw [gather_of_le hle]
      exact gather_of_le hle
  | case2 f hle e he =>
      obtain ⟨used, rest, huses⟩ := exists_uses_readRecord fun ht => h (he ▸ ht).error
      refine ⟨used, rest,
        huses.andThen (⟨.error e, ·, []⟩) (fun _ _ => rfl) fun ahead hsame => ?_⟩
      have hmore : ¬ length ≤ (f.withAhead ahead).buffered.length := hle
      exact gather_of_error hmore (hsame.trans he)
  | case3 f hle header hok _ ih =>
      obtain ⟨record, behind, hrecord, hahead, hread⟩ := exists_record_of_readRecord hok
      obtain ⟨used, rest, huses⟩ := ih h
      rw [hread] at huses
      refine ⟨record.encode ++ used, rest, huses.afterRecord hahead fun ahead => ?_⟩
      have hmore : ¬ length ≤ (f.withAhead (record.encode ++ ahead)).buffered.length := hle
      have hnext := readRecord_eq (f := f.withAhead (record.encode ++ ahead)) hrecord rfl
      rw [gather_of_ok hmore (congrArg Reply.result hnext), hnext]
      rfl

/-! ## Hellos -/

/-- Taking a message looks at what gathering looks at. -/
theorem exists_uses_readMessage (h : ¬ Truncated f.readMessage.result) :
    ∃ used rest, Uses readMessage f used rest := by
  cases hseen : Reassembly.messageAhead f.buffered with
  | none =>
      refine ⟨[], f.ahead, rfl, fun more => ?_⟩
      rw [readMessage_of_none hseen]
      exact readMessage_of_none hseen
  | some seen =>
      obtain ⟨type, length⟩ := seen
      have hmore : ∀ ahead, Reassembly.messageAhead (f.withAhead ahead).buffered =
          some (type, length) := fun _ => hseen
      cases hgather : (f.gather length).result with
      | error e =>
          rw [readMessage_of_error hseen hgather] at h
          obtain ⟨used, rest, huses⟩ := exists_uses_gather fun ht => h (hgather ▸ ht).error
          exact ⟨used, rest, huses.andThen (⟨.error e, ·, []⟩) (fun _ _ => rfl)
            fun ahead hsame => readMessage_of_error (hmore ahead) (hsame.trans hgather)⟩
      | ok _ =>
          obtain ⟨used, rest, huses⟩ := exists_uses_gather fun ht =>
            Reassembly.not_truncated_ok () (hgather ▸ ht)
          exact ⟨used, rest, huses.andThen
            (fun g => ⟨ClientHello.ofMessage type (g.buffered.take length), g.drain length, []⟩)
            (fun _ _ => rfl)
            fun ahead hsame => readMessage_of_ok (hmore ahead) (hsame.trans hgather)⟩

/-- **Reading a hello looks at the records that it takes, and at a header that it refuses.** -/
theorem exists_uses_readHello (h : ¬ Truncated f.readHello.result) :
    ∃ used rest, Uses readHello f used rest := by
  cases hresult : f.readRecord.result with
  | error e =>
      rw [readHello_of_error hresult] at h
      obtain ⟨used, rest, huses⟩ := exists_uses_readRecord fun ht => h (hresult ▸ ht).error
      exact ⟨used, rest, huses.andThen (⟨.error e, ·, []⟩) (fun _ _ => rfl)
        fun ahead hsame => readHello_of_error (hsame.trans hresult)⟩
  | ok header =>
      obtain ⟨record, behind, hrecord, hahead, hread⟩ := exists_record_of_readRecord hresult
      rw [readHello_of_ok hresult] at h
      obtain ⟨used, rest, huses⟩ := exists_uses_readMessage h
      rw [hread] at huses
      refine ⟨record.encode ++ used, rest, huses.afterRecord hahead fun ahead => ?_⟩
      have hnext := readRecord_eq (f := f.withAhead (record.encode ++ ahead)) hrecord rfl
      rw [readHello_of_ok (congrArg Reply.result hnext), hnext]
      rfl

end FlatReader

/-! ## The deciding front of a stream -/

/-- Reading a hello off bytes is what a flat reader does. -/
theorem result_readHello_ofBytes (data : Bytes) :
    (readHello (.ofBytes data)).result = (FlatReader.start data).readHello.result :=
  (Reassembly.mirrors_readHello (Reassembly.follows_new (.ofBytes data))
    (.inl (Source.handsOut_ofBytes data).steady)).result

/-- Reading a hello is decided at the end of these bytes: it is not cut short there, but on all
shorter fronts of them. -/
structure Decides (front : Bytes) : Prop where
  /-- It is decided there. -/
  decided : ¬ Truncated (readHello (.ofBytes front)).result
  /-- It is not decided before. -/
  early : ∀ early, early <+: front → early ≠ front → Truncated (readHello (.ofBytes early)).result

variable {front data : Bytes}

/-- **What stands behind the deciding front changes nothing.** -/
theorem Decides.readHello_append (h : Decides front) (more : Bytes) :
    (readHello (.ofBytes (front ++ more))).result = (readHello (.ofBytes front)).result := by
  have hdecided := h.decided
  rw [result_readHello_ofBytes] at hdecided
  obtain ⟨used, rest, huses⟩ := FlatReader.exists_uses_readHello hdecided
  have hsame : ∀ more, (FlatReader.start (used ++ more)).readHello.result =
      (FlatReader.start front).readHello.result := huses.result_eq
  -- on what is used it is decided already, so that is the whole front
  have hused : used = front := by
    refine Classical.not_not.mp fun hne => hdecided ?_
    have hearly := h.early used ⟨rest, huses.ahead.symm⟩ hne
    rwa [result_readHello_ofBytes, ← List.append_nil used, hsame] at hearly
  rw [hused] at hsame
  rw [result_readHello_ofBytes, result_readHello_ofBytes, hsame]

/-- **Bytes on which reading a hello is not cut short have a deciding front.** -/
theorem exists_decides {data : Bytes} (h : ¬ Truncated (readHello (.ofBytes data)).result) :
    ∃ front, front <+: data ∧ Decides front := by
  by_cases hearly : ∃ early, early <+: data ∧ early ≠ data ∧
      ¬ Truncated (readHello (.ofBytes early)).result
  · obtain ⟨early, hfront, hne, hdecided⟩ := hearly
    have hshorter : early.length < data.length :=
      Nat.lt_of_le_of_ne hfront.length_le fun heq => hne (hfront.eq_of_length heq)
    obtain ⟨front, hbefore, hdecides⟩ := exists_decides hdecided
    exact ⟨front, hbefore.trans hfront, hdecides⟩
  · refine ⟨data, List.prefix_rfl, h, fun early hfront hne => ?_⟩
    exact Classical.not_not.mp fun hdecided => hearly ⟨early, hfront, hne, hdecided⟩
  termination_by data.length

/-- Bytes that are read alike parse alike, unless reading is cut short. -/
theorem ClientHello.parseRecords_congr {other : Bytes}
    (hdecided : ¬ Truncated (readHello (.ofBytes data)).result)
    (h : (readHello (.ofBytes other)).result = (readHello (.ofBytes data)).result) :
    parseRecords other = parseRecords data := by
  rw [parseRecords, parseRecords, h]
  split
  · rfl
  · rfl
  · next hresult => exact absurd ⟨_, _, hresult⟩ hdecided

/-- Bytes that are cut short parse as too short. -/
theorem ClientHello.parseRecords_of_truncated {need : Nat} {failure : Failure}
    (h : (readHello (.ofBytes data)).result = .error (.truncatedStream need failure)) :
    parseRecords data = .error (.bufferTooShort need data.length) := by
  rw [parseRecords, h]

/-- **Reading a hello is decided at one point of the stream.**  Whatever agrees up to there is
answered alike, and whatever ends before it is cut short. -/
theorem readHello_decided_at (data : Bytes)
    (h : ¬ Truncated (readHello (.ofBytes data)).result) :
    ∃ k ≤ data.length,
      (∀ other : Bytes, other.take k = data.take k →
        (readHello (.ofBytes other)).result = (readHello (.ofBytes data)).result ∧
        ClientHello.parseRecords other = ClientHello.parseRecords data) ∧
      ∀ early : Bytes, early <+: data.take k → early ≠ data.take k →
        ∃ need failure,
          (readHello (.ofBytes early)).result = .error (.truncatedStream need failure) ∧
          ClientHello.parseRecords early = .error (.bufferTooShort need early.length) := by
  obtain ⟨front, hfront, hdecides⟩ := exists_decides h
  have htake : data.take front.length = front := (List.prefix_iff_eq_take.mp hfront).symm
  have hagree : ∀ other : Bytes, other.take front.length = front →
      (readHello (.ofBytes other)).result = (readHello (.ofBytes front)).result := by
    intro other hother
    rw [← List.take_append_drop front.length other, hother]
    exact hdecides.readHello_append _
  refine ⟨front.length, hfront.length_le, fun other hother => ?_, fun early hearly hne => ?_⟩
  · have hsame := (hagree other (hother.trans htake)).trans (hagree data htake).symm
    exact ⟨hsame, ClientHello.parseRecords_congr h hsame⟩
  · rw [htake] at hearly hne
    obtain ⟨need, failure, hcut⟩ := hdecides.early early hearly hne
    exact ⟨need, failure, hcut, ClientHello.parseRecords_of_truncated hcut⟩

/-- The sample hello in three records is read the same with anything else behind a certain point. -/
theorem readHello_decided_at_sample :
    let data := Record.stream sampleRecords ++ [0x17, 3]
    ¬ Truncated (readHello (.ofBytes data)).result ∧
      ∃ k ≤ data.length, ∀ other : Bytes, other.take k = data.take k →
        (readHello (.ofBytes other)).result = (readHello (.ofBytes data)).result := by
  intro data
  have hdecided : ¬ Truncated (readHello (.ofBytes data)).result := by decide +kernel
  obtain ⟨k, hk, hagree, -⟩ := readHello_decided_at data hdecided
  exact ⟨hdecided, k, hk, fun other hother => (hagree other hother).1⟩

end SplitHello
