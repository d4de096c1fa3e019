import SplitHello.Proofs.Record.Demand

/-!
# Proofs/Record/Loss — what is lost with a record that cannot be read

A record that cannot be read is lost as far as it was handed out, and so is what was pending; what
is buffered stays.  Nothing of it turns up again: what is taken in later stands in what the source
has left.

* `exists_takesIn_of_ok`, `exists_takesIn_of_error` — what one read takes in, and what it loses;
* `readHello_cases` — reading a hello that fails at a record takes in the records ahead of it, as
  reads one after the other do;
* `exists_passes_each` — over any run, what is buffered or was taken out is what the records carry
  that stand, one behind the other, in what is ahead;
* `failed_record_is_lost` — so a read that fails leaves what is buffered, and nothing else.
-/

namespace SplitHello.Reassembly

variable {r : Reassembly} {source : Source} {header : RecordHeader} {e : ReadError}
  {first middle last : Reassembly × Source} {records more : List Record} {lost : Bytes}

/-- What is pending, and then what the source has left. -/
def ahead (state : Reassembly × Source) : Bytes := state.1.pendingBytes ++ state.2.data

/-- Records that stand at the front of what is ahead are taken in, and some bytes behind them are
lost. -/
structure TakesIn (first : Reassembly × Source) (records : List Record) (lost : Bytes)
    (last : Reassembly × Source) : Prop where
  /-- The records are accepted ones. -/
  admissible : ∀ record ∈ records, record.Admissible
  /-- They and what is lost are no longer ahead. -/
  ahead : ahead first = Record.stream records ++ (lost ++ ahead last)
  /-- What they carry is buffered, behind what was there. -/
  buffered : last.1.buffered = first.1.buffered ++ Record.carried records

theorem takesIn_nil (state : Reassembly × Source) : TakesIn state [] [] state where
  admissible _ h := absurd h List.not_mem_nil
  ahead := rfl
  buffered := (List.append_nil _).symm

/-- What is taken in behind records that are taken in is taken in with them. -/
theorem TakesIn.trans (h : TakesIn first records [] middle) (h' : TakesIn middle more lost last) :
    TakesIn first (records ++ more) lost last where
  admissible := List.forall_mem_append.mpr ⟨h.admissible, h'.admissible⟩
  ahead := by rw [h.ahead, List.nil_append, h'.ahead, Record.stream_append, List.append_assoc]
  buffered := by rw [h'.buffered, h.buffered, Record.carried_append, List.append_assoc]

/-! ## One record -/

/-- **A read that succeeds takes one record in**, and loses nothing. -/
theorem exists_takesIn_of_ok (h : (r.readRecord source).result = .ok header) :
    ∃ record : Record, record.header = header ∧
      TakesIn (r, source) [record] [] (r.readRecord source).state := by
  have hfollows : Follows (r, source) ⟨ahead (r, source), r.buffered, [], []⟩ := ⟨rfl, rfl⟩
  have hmirrors := mirrors_readRecord hfollows (.inr fun ht => not_truncated_ok header (h ▸ ht))
  obtain ⟨record, rest, hrecord, hahead, hflat⟩ :=
    FlatReader.exists_record_of_readRecord (hmirrors.result.symm.trans h)
  have hafter := hmirrors.follows (congrArg failedAtRecord h)
  have hheader := hmirrors.result.symm.trans h
  rw [hflat] at hafter hheader
  refine ⟨record, Except.ok.inj hheader, List.forall_mem_singleton.mpr hrecord, ?_, ?_⟩
  · have hrest : ahead (r.readRecord source).state = rest := hafter.ahead
    rw [hrest, Record.stream_cons, Record.stream_nil, List.append_nil, List.nil_append]
    exact hahead
  · rw [hafter.buffered, FlatReader.buffered_take_singleton, Record.carried_singleton]

/-- **A read that fails takes nothing in**, and loses what was pending. -/
theorem exists_takesIn_of_error (h : (r.readRecord source).result = .error e) :
    (r.readRecord source).state.1 = r.dropPending ∧
      ∃ lost, TakesIn (r, source) [] lost (r.readRecord source).state := by
  have hdropped : (r.readRecord source).state.1 = r.dropPending := by
    have hread := r.recordRead_readRecord source
    generalize r.readRecord source = reply at hread h
    cases hread with
    | noHeader | refused | noPayload => rfl
    | taken => cases h
  refine ⟨hdropped, r.pendingBytes ++ source.data.take (r.readRecord source).journal.handedOut,
    fun _ h => absurd h List.not_mem_nil, ?_, ?_⟩
  · have hnone : ahead (r.readRecord source).state = (r.readRecord source).state.2.data := by
      rw [ahead, hdropped]
      rfl
    rw [hnone, data_readRecord, List.append_assoc, List.take_append_drop]
    rfl
  · rw [hdropped]
    exact (List.append_nil _).symm

/-! ## A whole message -/

/-- Records are taken in one after the other, and the read behind them fails. -/
structure FailsBehind (first : Reassembly × Source) (records : List Record) (lost : Bytes)
    (e : ReadError) (last : Reassembly × Source) : Prop where
  /-- The records are taken in, and nothing else. -/
  takesIn : TakesIn first records lost last
  /-- Nothing is pending in the end. -/
  pending : last.1.pending = none
  /-- So many reads answer with the headers of the records, and the one behind them fails. -/
  result : (Reply.each perform first (List.replicate (records.length + 1) .record)).result =
    records.map (fun record => .record (.ok record.header)) ++ [.record (.error e)]
  /-- They lead to where it ends. -/
  state : (Reply.each perform first (List.replicate (records.length + 1) .record)).state = last

/-- A read that fails does so behind no record. -/
theorem exists_failsBehind_of_error (h : (r.readRecord source).result = .error e) :
    ∃ lost, FailsBehind (r, source) [] lost e (r.readRecord source).state := by
  obtain ⟨hdropped, lost, htakes⟩ := exists_takesIn_of_error h
  refine ⟨lost, htakes, congrArg pending hdropped, ?_, rfl⟩
  exact congrArg (fun result => [Answer.record result]) h

/-- What fails behind records fails behind one more if that was taken in before. -/
theorem exists_failsBehind_of_ok (h : (r.readRecord source).result = .ok header)
    (h' : FailsBehind (r.readRecord source).state records lost e last) :
    ∃ record, FailsBehind (r, source) (record :: records) lost e last := by
  obtain ⟨record, rfl, htakes⟩ := exists_takesIn_of_ok h
  refine ⟨record, htakes.trans h'.takesIn, h'.pending, ?_, h'.state⟩
  have hfirst : (perform (r, source) .record).result = .record (.ok record.header) :=
    congrArg Answer.record h
  rw [List.length_cons, List.replicate_succ, Reply.result_each_cons, hfirst]
  exact congrArg (_ :: ·) h'.result

/-- **Gathering fails behind the records that it took in**, or takes records in and loses
nothing. -/
theorem gather_cases (r : Reassembly) (source : Source) (length : Nat) :
    let reply := r.gather source length
    (∃ e records lost, reply.result = .error e ∧
      FailsBehind (r, source) records lost e reply.state) ∨
    ∃ records, reply.result = .ok () ∧ TakesIn (r, source) records [] reply.state := by
  fun_induction gather r source length with
  | case1 r source => exact .inr ⟨[], rfl, takesIn_nil _⟩
  | case2 r source _ note reply e he =>
      obtain ⟨lost, hfails⟩ := exists_failsBehind_of_error he
      exact .inl ⟨e, [], lost, rfl, hfails⟩
  | case3 r source _ note reply header hok _ ih =>
      rcases ih with ⟨e, records, lost, he, hfails⟩ | ⟨records, hdone, htakes⟩
      · obtain ⟨record, hall⟩ := exists_failsBehind_of_ok hok hfails
        exact .inl ⟨e, record :: records, lost, he, hall⟩
      · obtain ⟨record, -, hrecord⟩ := exists_takesIn_of_ok hok
        exact .inr ⟨record :: records, hdone, hrecord.trans htakes⟩

/-- Records are taken in, nothing is lost, and some bytes are taken out of the front of what is
buffered then. -/
structure TakesOut (first : Reassembly × Source) (records : List Record) (message : Bytes)
    (last : Reassembly × Source) : Prop where
  /-- The records are accepted ones. -/
  admissible : ∀ record ∈ records, record.Admissible
  /-- They are no longer ahead. -/
  ahead : ahead first = Record.stream records ++ ahead last
  /-- What they carry is buffered, or was taken out. -/
  buffered : first.1.buffered ++ Record.carried records = message ++ last.1.buffered

/-- Records that are taken in leave the rest to be taken in and out. -/
theorem TakesIn.takesOut {message : Bytes} (h : TakesIn first records [] middle)
    (h' : TakesOut middle more message last) : TakesOut first (records ++ more) message last where
  admissible := List.forall_mem_append.mpr ⟨h.admissible, h'.admissible⟩
  ahead := by rw [h.ahead, List.nil_append, h'.ahead, Record.stream_append, List.append_assoc]
  buffered := by rw [Record.carried_append, ← List.append_assoc, ← h.buffered, h'.buffered]

theorem takesOut_nil (state : Reassembly × Source) : TakesOut state [] [] state where
  admissible _ h := absurd h List.not_mem_nil
  ahead := rfl
  buffered := List.append_nil _

/-- A message is taken out of what is buffered, and does not fail at a record. -/
theorem takesOut_takeMessage (r : Reassembly) (source : Source) (type : UInt8) (length : Nat) :
    failedAtRecord (r.takeMessage source type length).result = false ∧
      TakesOut (r, source) [] (r.buffered.take length)
        (r.takeMessage source type length).state := by
  have hresult : (r.takeMessage source type length).result =
      ClientHello.ofMessage type (r.buffered.take length) := by
    rw [takeMessage, ClientHello.ofMessage]
    split <;> rfl
  refine ⟨hresult ▸ FlatReader.failedAtRecord_ofMessage type _, ?_⟩
  rw [state_takeMessage]
  refine ⟨fun _ h => absurd h List.not_mem_nil, rfl, ?_⟩
  exact (List.append_nil _).trans (List.take_append_drop length r.buffered).symm

/-- Reading a message fails behind the records that it took in, or takes records in and bytes
out. -/
theorem readMessage_cases (r : Reassembly) (source : Source) :
    let reply := r.readMessage source
    (∃ e records lost, reply.result = .error e ∧
      FailsBehind (r, source) records lost e reply.state) ∨
    failedAtRecord reply.result = false ∧ ∃ records message,
      TakesOut (r, source) records message reply.state := by
  rw [readMessage]
  split
  · exact .inr ⟨rfl, [], [], takesOut_nil _⟩
  · next type length _ =>
    have hgather := r.gather_cases source length
    generalize r.gather source length = reply at hgather ⊢
    obtain ⟨result, ⟨after, left⟩, journal⟩ := reply
    rcases hgather with ⟨e, records, lost, rfl, hfails⟩ | ⟨records, rfl, htakes⟩
    · exact .inl ⟨e, records, lost, rfl, hfails⟩
    · obtain ⟨hnot, hout⟩ := after.takesOut_takeMessage left type length
      exact .inr ⟨hnot, _, _, htakes.takesOut hout⟩

/-- **Reading a hello fails behind the records that it took in**, or takes records in, loses
nothing, and takes some bytes out of what is buffered. -/
theorem readHello_cases (r : Reassembly) (source : Source) :
    let reply := r.readHello source
    (∃ e records lost, reply.result = .error e ∧
      FailsBehind (r, source) records lost e reply.state) ∨
    failedAtRecord reply.result = false ∧ ∃ records message,
      TakesOut (r, source) records message reply.state := by
  cases hresult : (r.readRecord source).result with
  | error e =>
      have hread : r.readRecord source = ⟨.error e, (r.readRecord source).state,
          (r.readRecord source).journal⟩ := congrArg (Reply.mk · _ _) hresult
      rw [readHello_of_error hread]
      obtain ⟨lost, hfails⟩ := exists_failsBehind_of_error hresult
      exact .inl ⟨e, [], lost, rfl, hfails⟩
  | ok header =>
      have hread : r.readRecord source = ⟨.ok header, (r.readRecord source).state,
          (r.readRecord source).journal⟩ := congrArg (Reply.mk · _ _) hresult
      rw [readHello_of_ok hread]
      obtain ⟨record, -, hrecord⟩ := exists_takesIn_of_ok hresult
      rcases readMessage_cases (r.readRecord source).state.1 (r.readRecord source).state.2 with
        ⟨e, records, lost, he, hfails⟩ | ⟨hnot, records, message, hout⟩
      · obtain ⟨record, hall⟩ := exists_failsBehind_of_ok hresult hfails
        exact .inl ⟨e, record :: records, lost, he, hall⟩
      · exact .inr ⟨hnot, record :: records, message, hrecord.takesOut hout⟩

/-! ## Runs -/

/-- Records that stand in some bytes, one behind the other but perhaps with others between them, and
the bytes behind them. -/
inductive Gleans : Bytes → List Record → Bytes → Prop
  /-- No record is left. -/
  | done {rest : Bytes} : Gleans rest [] rest
  /-- Bytes are passed over. -/
  | lost {lost later rest : Bytes} {records : List Record} (h : Gleans later records rest) :
      Gleans (lost ++ later) records rest
  /-- A record stands there. -/
  | taken {record : Record} {later rest : Bytes} {records : List Record}
      (hrecord : record.Admissible) (h : Gleans later records rest) :
      Gleans (record.encode ++ later) (record :: records) rest

theorem Gleans.trans {data between rest : Bytes} (h : Gleans data records between)
    (h' : Gleans between more rest) : Gleans data (records ++ more) rest := by
  induction h with
  | done => exact h'
  | lost _ ih => exact .lost (ih h')
  | taken hrecord _ ih => exact .taken hrecord (ih h')

theorem gleans_stream (hrecords : ∀ record ∈ records, record.Admissible) (rest : Bytes) :
    Gleans (Record.stream records ++ rest) records rest := by
  induction records with
  | nil => exact .done
  | cons record later ih =>
      obtain ⟨hrecord, hlater⟩ := List.forall_mem_cons.mp hrecords
      rw [Record.stream_cons, List.append_assoc]
      exact .taken hrecord (ih hlater)

/-- Records are taken in from what is ahead, and some bytes are taken out of what is buffered. -/
structure Passes (first : Reassembly × Source) (records : List Record) (out : Bytes)
    (last : Reassembly × Source) : Prop where
  /-- The records stand in what is ahead, one behind the other. -/
  ahead : Gleans (ahead first) records (ahead last)
  /-- What they carry is buffered, or was taken out. -/
  buffered : first.1.buffered ++ Record.carried records = out ++ last.1.buffered

theorem TakesIn.passes (h : TakesIn first records lost last) : Passes first records [] last where
  ahead := by
    have hgleans := (gleans_stream h.admissible (lost ++ Reassembly.ahead last)).trans (.lost .done)
    rwa [← h.ahead, List.append_nil] at hgleans
  buffered := h.buffered.symm

theorem TakesOut.passes {message : Bytes} (h : TakesOut first records message last) :
    Passes first records message last where
  ahead := h.ahead ▸ gleans_stream h.admissible _
  buffered := h.buffered

theorem Passes.trans {out out' : Bytes} (h : Passes first records out middle)
    (h' : Passes middle more out' last) : Passes first (records ++ more) (out ++ out') last where
  ahead := h.ahead.trans h'.ahead
  buffered := by
    rw [Record.carried_append, ← List.append_assoc, h.buffered, List.append_assoc, h'.buffered,
      List.append_assoc]

/-- **A request takes records in from what is ahead**, whether it fails or not. -/
theorem exists_passes_perform (state : Reassembly × Source) (request : Request) :
    ∃ records out, Passes state records out (perform state request).state := by
  cases request with
  | record =>
      cases hresult : (state.1.readRecord state.2).result with
      | error e =>
          obtain ⟨-, lost, htakes⟩ := exists_takesIn_of_error hresult
          exact ⟨_, _, htakes.passes⟩
      | ok header =>
          obtain ⟨record, -, htakes⟩ := exists_takesIn_of_ok hresult
          exact ⟨_, _, htakes.passes⟩
  | hello =>
      rcases state.1.readHello_cases state.2 with
        ⟨e, records, lost, -, hfails⟩ | ⟨-, records, message, hout⟩
      · exact ⟨_, _, hfails.takesIn.passes⟩
      · exact ⟨_, _, hout.passes⟩

/-- **So does a run of requests.** -/
theorem exists_passes_each (state : Reassembly × Source) (requests : List Request) :
    ∃ records out, Passes state records out (Reply.each perform state requests).state := by
  induction requests generalizing state with
  | nil => exact ⟨[], [], .done, List.append_nil _⟩
  | cons request later ih =>
      obtain ⟨records, out, hfirst⟩ := exists_passes_perform state request
      obtain ⟨more, out', hlater⟩ := ih (perform state request).state
      exact ⟨_, _, hfirst.trans hlater⟩

/-- **A record that cannot be read is lost, and only it.**  A read that fails, in whatever way,
leaves what is buffered as it was.  Every later run of requests does what it would do with that
buffered, nothing pending, and the source where it stands now; so the records that it takes in stand
in what the source has left, and what is buffered in the end or was taken out until then is what was
buffered and what they carry.  If reading a hello fails at a record, it has taken in the records
ahead of it as reads one after the other do: what is buffered has grown by what they carry, nothing
was taken out, and a later run does again what it would do with nothing pending. -/
theorem failed_record_is_lost (r : Reassembly) (source : Source) :
    (∀ e, (r.readRecord source).result = .error e →
      let reply := r.readRecord source
      reply.state.1.buffered = r.buffered ∧
      reply.state.2.data = source.data.drop reply.journal.handedOut ∧
      ∀ requests : List Request,
        let later := Reply.each perform reply.state requests
        later = Reply.each perform (⟨none, r.buffered⟩, reply.state.2) requests ∧
        ∃ records out, Gleans reply.state.2.data records (ahead later.state) ∧
          r.buffered ++ Record.carried records = out ++ later.state.1.buffered) ∧
    (failedAtRecord (r.readHello source).result = true →
      let reply := r.readHello source
      ∃ e records lost, reply.result = .error e ∧
        FailsBehind (r, source) records lost e reply.state ∧
        reply.state.1.buffered = r.buffered ++ Record.carried records ∧
        ∀ requests : List Request, Reply.each perform reply.state requests =
          Reply.each perform (⟨none, r.buffered ++ Record.carried records⟩, reply.state.2)
            requests) := by
  constructor
  · intro e h reply
    obtain ⟨hdropped, -⟩ := exists_takesIn_of_error h
    have hstate : reply.state = (⟨none, r.buffered⟩, reply.state.2) :=
      congrArg (·, reply.state.2) hdropped
    have hbuffered : reply.state.1.buffered = r.dropPending.buffered := congrArg buffered hdropped
    refine ⟨hbuffered, data_readRecord r source, fun requests => ?_⟩
    obtain ⟨records, out, hpasses⟩ :=
      exists_passes_each (⟨none, r.buffered⟩, reply.state.2) requests
    intro later
    have hlater : later = Reply.each perform (⟨none, r.buffered⟩, reply.state.2) requests :=
      congrArg (Reply.each perform · requests) hstate
    refine ⟨hlater, records, out, ?_, ?_⟩
    · rw [hlater]
      exact hpasses.ahead
    · rw [hlater]
      exact hpasses.buffered
  · intro hfailed reply
    rcases r.readHello_cases source with ⟨e, records, lost, he, hfails⟩ | ⟨hnot, -⟩
    · have hbuffered := hfails.takesIn.buffered
      have hstate : reply.state =
          (⟨none, r.buffered ++ Record.carried records⟩, reply.state.2) :=
        Prod.ext (congrArg₂ Reassembly.mk hfails.pending hbuffered) rfl
      exact ⟨e, records, lost, he, hfails, hbuffered,
        fun requests => congrArg (Reply.each perform · requests) hstate⟩
    · exact absurd (hnot.symm.trans hfailed) Bool.noConfusion

/-- A source that is reset inside its second record, behind three bytes of its header. -/
def resetInside : Source where
  data := Record.encode ⟨0x0301, [1, 0, 0, 9, 1, 1, 1]⟩ ++ [22, 3, 1] ++
    Record.encode ⟨0x0303, [7, 7]⟩
  script := ⟨[.moves 12, .moves 3, .fails (.io ⟨.connectionReset, "reset"⟩)], none⟩

/-- A message goes on in a record that is lost.  What its first record carries stays buffered,
whether a hello or two records were asked for, and the next record is read from behind what was
lost. -/
theorem failed_record_is_lost_reset :
    let lost : Except ReadError RecordHeader :=
      .error (.truncatedStream 5 (.io ⟨.connectionReset, "reset"⟩))
    let first := new.readRecord resetInside
    let second := first.state.1.readRecord first.state.2
    let hello := new.readHello resetInside
    second.result = lost ∧ second.state.1.buffered = [1, 0, 0, 9, 1, 1, 1] ∧
      second.state.2.data = Record.encode ⟨0x0303, [7, 7]⟩ ∧
      (∃ records out, Gleans (Record.encode ⟨0x0303, [7, 7]⟩) records
          (ahead (Reply.each perform second.state [.record]).state) ∧
        [1, 0, 0, 9, 1, 1, 1] ++ Record.carried records =
          out ++ (Reply.each perform second.state [.record]).state.1.buffered) ∧
      (Reply.each perform second.state [.record]).state.1.buffered =
        [1, 0, 0, 9, 1, 1, 1, 7, 7] ∧
      failedAtRecord hello.result = true ∧
      ∃ e records lost, FailsBehind (new, resetInside) records lost e hello.state ∧
        hello.state.1.buffered = Record.carried records := by
  intro lost first second hello
  have hlost : second.result = lost := by decide +kernel
  have hdata : second.state.2.data = Record.encode ⟨0x0303, [7, 7]⟩ := by decide +kernel
  have hbuffered : first.state.1.buffered = [1, 0, 0, 9, 1, 1, 1] := by decide +kernel
  have hfailed : failedAtRecord hello.result = true := by decide +kernel
  obtain ⟨hkept, -, hruns⟩ := (failed_record_is_lost first.state.1 first.state.2).1 _ hlost
  obtain ⟨-, records, out, hgleans, hcarried⟩ := hruns [.record]
  obtain ⟨e, taken, gone, -, hbehind, hgrown, -⟩ :=
    (failed_record_is_lost new resetInside).2 hfailed
  exact ⟨hlost, hkept.trans hbuffered, hdata, ⟨records, out, hdata ▸ hgleans, hbuffered ▸ hcarried⟩,
    by decide +kernel, hfailed, e, taken, gone, hbehind, hgrown⟩

end SplitHello.Reassembly
