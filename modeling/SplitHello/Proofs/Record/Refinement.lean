import SplitHello.Proofs.Record.FlatReader
import SplitHello.Proofs.Record.Reading

/-!
# Proofs/Record/Refinement — chunks do not matter

What is pending and what the source still holds make up the stream that a flat reader has ahead of
it.  A call on a reassembly does to them what the call on the flat reader does, if the source is
steady; if it is not, then at least whenever the call is not cut short.

* `front_of_taken` and its siblings — each way in which reading a record ends is what `Record.front`
  says of the stream;
* `mirrors_readRecord`, `mirrors_gather`, `mirrors_readHello` — the calls do the same.
-/

namespace SplitHello

namespace Reassembly

/-! ## One fill -/

section Fill

variable {buffer filled : Buffer} {source after : Source} {n : Nat} {failed : Option Failure}
  {journal : Journal}

/-- However a fill ends, the buffer and the source together hold what they held. -/
theorem append_of_fillTo (h : buffer.fillTo source n = ⟨failed, (filled, after), journal⟩) :
    filled.bytes ++ after.data = buffer.bytes ++ source.data := by
  have happend := buffer.append_fillTo source n
  rwa [h] at happend

/-- A fill that succeeds brings enough. -/
theorem le_length_of_fillTo (h : buffer.fillTo source n = ⟨none, (filled, after), journal⟩) :
    n ≤ filled.bytes.length := by
  have hlong := @Buffer.le_length_fillTo buffer source n
  rw [h] at hlong
  exact hlong rfl

/-- A fill from a steady source fails with the source, and only if the buffer and the source
together hold too little. -/
theorem sourceEnded_of_fillTo (hs : source.script.Steady) {failure : Failure}
    (h : buffer.fillTo source n = ⟨some failure, (filled, after), journal⟩) :
    failure = .io .sourceEnded ∧ (buffer.bytes ++ source.data).length < n := by
  have hended := hs.result_fillTo buffer n
  rw [h] at hended
  split at hended
  · cases hended
  · next hshort => exact ⟨Option.some.inj hended, Nat.lt_of_not_le hshort⟩

end Fill

/-! ## One record, in the bytes that are pending or still in the source -/

section Front

variable {r : Reassembly} {source : Source} {first second : Buffer} {between after : Source}
  {header : RecordHeader} {failure : Failure} {journal more : Journal}

/-- What is pending and what the source still holds is what the first fill leaves. -/
theorem append_of_atHand {failed : Option Failure}
    (h : r.atHand.fillTo source RecordHeader.size = ⟨failed, (first, between), journal⟩) :
    first.bytes ++ between.data = r.pendingBytes ++ source.data := by
  rw [append_of_fillTo h, bytes_atHand]

/-- The header is judged as if the whole stream were at hand. -/
theorem parse_of_atHand
    (h : r.atHand.fillTo source RecordHeader.size = ⟨none, (first, between), journal⟩) :
    RecordHeader.size ≤ (r.pendingBytes ++ source.data).length ∧
      RecordHeader.parse (r.pendingBytes ++ source.data) = RecordHeader.parse first.bytes := by
  have hsize := le_length_of_fillTo h
  rw [← append_of_atHand h, List.length_append]
  exact ⟨Nat.le_trans hsize (Nat.le_add_right _ _), RecordHeader.parse_append hsize _⟩

theorem front_of_noHeader (hs : source.script.Steady)
    (h : r.atHand.fillTo source RecordHeader.size = ⟨some failure, (first, between), journal⟩) :
    Record.front (r.pendingBytes ++ source.data) =
      .error (.truncatedStream RecordHeader.size failure) := by
  obtain ⟨rfl, hshort⟩ := sourceEnded_of_fillTo hs h
  rw [bytes_atHand] at hshort
  exact Record.front_of_length_lt hshort

theorem front_of_refused {e : ParseError}
    (h : r.atHand.fillTo source RecordHeader.size = ⟨none, (first, between), journal⟩)
    (hparse : RecordHeader.parse first.bytes = .error e) :
    Record.front (r.pendingBytes ++ source.data) = .error (.notTls e) := by
  obtain ⟨hsize, hsame⟩ := parse_of_atHand h
  exact Record.front_of_refused hsize (hsame.trans hparse)

theorem front_of_noPayload (hs : source.script.Steady)
    (h : r.atHand.fillTo source RecordHeader.size = ⟨none, (first, between), journal⟩)
    (hparse : RecordHeader.parse first.bytes = .ok header)
    (hmore : first.fillTo between header.totalLength = ⟨some failure, (second, after), more⟩) :
    Record.front (r.pendingBytes ++ source.data) =
      .error (.truncatedStream header.totalLength failure) := by
  obtain ⟨hsize, hsame⟩ := parse_of_atHand h
  obtain ⟨rfl, hshort⟩ := sourceEnded_of_fillTo (steady_of_fillTo hs h) hmore
  rw [append_of_atHand h] at hshort
  exact Record.front_of_lt_totalLength hsize (hsame.trans hparse) hshort

theorem front_of_taken
    (h : r.atHand.fillTo source RecordHeader.size = ⟨none, (first, between), journal⟩)
    (hparse : RecordHeader.parse first.bytes = .ok header)
    (hmore : first.fillTo between header.totalLength = ⟨none, (second, after), more⟩) :
    ∃ record, Record.front (r.pendingBytes ++ source.data) =
        .ok (record, second.bytes.drop header.totalLength ++ after.data) ∧
      record.header = header ∧
      record.payload = header.payloadOf second.bytes := by
  obtain ⟨hsize, hsame⟩ := parse_of_atHand h
  have htotal := le_length_of_fillTo hmore
  have happend : r.pendingBytes ++ source.data = second.bytes ++ after.data := by
    rw [append_of_fillTo hmore, append_of_atHand h]
  have hlong : header.totalLength ≤ (r.pendingBytes ++ source.data).length := by
    rw [happend, List.length_append]
    exact Nat.le_trans htotal (Nat.le_add_right _ _)
  have hfront := Record.exists_front_of_parse hsize (hsame.trans hparse) hlong
  rw [happend] at hfront ⊢
  rwa [RecordHeader.payloadOf, List.drop_append_of_le_length htotal,
    List.take_append_of_le_length htotal] at hfront

end Front

/-! ## Taking a record in -/

theorem bytes_cutAt (buffer : Buffer) (n : Nat) :
    (buffer.cutAt n).2.bytes = buffer.bytes.take n := by
  rw [Buffer.cutAt]
  split
  · next h => exact (List.take_of_length_le h).symm
  · rfl

theorem pendingBytes_takeRecord (r : Reassembly) (header : RecordHeader) (buffer : Buffer)
    (source : Source) : (r.takeRecord header buffer source).state.1.pendingBytes =
      buffer.bytes.drop header.totalLength :=
  buffer.contentOf_cutAt header.totalLength

/-- What a record adds to what is buffered is its payload. -/
theorem buffered_takeRecord (r : Reassembly) {header : RecordHeader} {buffer : Buffer}
    (source : Source) (h : header.totalLength ≤ buffer.bytes.length) :
    (r.takeRecord header buffer source).state.1.buffered =
      r.buffered ++ header.payloadOf buffer.bytes := by
  have hsize : min RecordHeader.size (buffer.bytes.take header.totalLength).length =
      RecordHeader.size := by
    rw [List.length_take_of_le h]
    exact Nat.min_eq_left (Nat.le_add_right _ _)
  change r.buffered ++ (buffer.cutAt header.totalLength).2.bytes.drop
    (min RecordHeader.size (buffer.cutAt header.totalLength).2.bytes.length) = _
  rw [bytes_cutAt, hsize, RecordHeader.payloadOf]

/-! ## One call -/

/-- A reassembly and its source stand where a flat reader does. -/
structure Follows (state : Reassembly × Source) (f : FlatReader) : Prop where
  /-- What is pending and what the source still holds is what is not taken yet. -/
  ahead : state.1.pendingBytes ++ state.2.data = f.ahead
  /-- The same is buffered. -/
  buffered : state.1.buffered = f.buffered

/-- Nothing has been read yet, by a reassembly or a flat reader. -/
theorem follows_new (source : Source) : Follows (new, source) (.start source.data) := ⟨rfl, rfl⟩

/-- Whether a call failed at a record, and not at what records carry. -/
def failedAtRecord {α : Type} : Except ReadError α → Bool
  | .error e => e.ofRecord
  | .ok _ => false

/-- A call was cut short by the source. -/
def Truncated {α : Type} (result : Except ReadError α) : Prop :=
  ∃ need failure, result = .error (.truncatedStream need failure)

/-- Being cut short is a matter of the error. -/
theorem Truncated.error {α β : Type} {e : ReadError}
    (h : Truncated (.error e : Except ReadError α)) :
    Truncated (.error e : Except ReadError β) := by
  obtain ⟨need, failure, he⟩ := h
  exact ⟨need, failure, congrArg Except.error (Except.error.inj he)⟩

theorem not_truncated_ok {α : Type} (a : α) : ¬ Truncated (.ok a) := by
  rintro ⟨need, failure, h⟩
  cases h

instance {α : Type} : (result : Except ReadError α) → Decidable (Truncated result)
  | .ok a => .isFalse (not_truncated_ok a)
  | .error (.truncatedStream need failure) => .isTrue ⟨need, failure, rfl⟩
  | .error (.notTls _) => .isFalse fun ⟨_, _, h⟩ => ReadError.noConfusion (Except.error.inj h)

/-- A call on a reassembly does what the call on a flat reader does, up to what it leaves of the
stream if it fails at a record. -/
structure Mirrors {α : Type} (reply : Reply (Reassembly × Source) (Except ReadError α))
    (flat : Reply FlatReader (Except ReadError α)) : Prop where
  /-- It answers the same. -/
  result : reply.result = flat.result
  /-- It leaves the same buffered. -/
  buffered : reply.state.1.buffered = flat.state.buffered
  /-- Unless it fails at a record, it leaves the same of the stream. -/
  follows : failedAtRecord reply.result = false → Follows reply.state flat.state

variable {r : Reassembly} {source : Source} {f : FlatReader}

/-- A flat reader that fails at its next record fails as a reassembly that fails there does. -/
theorem mirrors_of_front {e : ReadError} {after : Source} {journal : Journal}
    (hf : Follows (r, source) f)
    (hfront : Record.front (r.pendingBytes ++ source.data) = .error e) :
    Mirrors ⟨.error e, (r.dropPending, after), journal⟩ f.readRecord := by
  have hfails := Record.ofRecord_of_front hfront
  rw [hf.ahead] at hfront
  rw [FlatReader.readRecord, hfront]
  refine ⟨rfl, hf.buffered, fun hok => ?_⟩
  exact absurd (hfails.symm.trans hok) Bool.noConfusion

/-- **Reading a record does what a flat reader does**, if the source is steady or was at least not
what ended it. -/
theorem mirrors_readRecord (hf : Follows (r, source) f)
    (hs : source.script.Steady ∨ ¬ Truncated (r.readRecord source).result) :
    Mirrors (r.readRecord source) f.readRecord := by
  have hread := r.recordRead_readRecord source
  generalize r.readRecord source = reply at hread hs ⊢
  cases hread with
  -- where the source ended the call, it was steady, so it ended because it was empty
  | noHeader h =>
      have hsteady := hs.resolve_right fun hnot => hnot ⟨_, _, rfl⟩
      exact mirrors_of_front hf (front_of_noHeader hsteady h)
  | refused h hparse => exact mirrors_of_front hf (front_of_refused h hparse)
  | noPayload h hparse hmore =>
      have hsteady := hs.resolve_right fun hnot => hnot ⟨_, _, rfl⟩
      exact mirrors_of_front hf (front_of_noPayload hsteady h hparse hmore)
  | @taken first second between after header journal more h hparse hmore =>
      obtain ⟨record, hfront, rfl, hpayload⟩ := front_of_taken h hparse hmore
      have hbuffered := r.buffered_takeRecord after (le_length_of_fillTo hmore)
      rw [hf.ahead] at hfront
      rw [FlatReader.readRecord, hfront]
      have hsame : ∀ rest, (r.takeRecord record.header second after).state.1.buffered =
          (f.take [record] rest).buffered := fun rest => by
        rw [hbuffered, FlatReader.buffered_take_singleton, hpayload, ← hf.buffered]
      have hpending := r.pendingBytes_takeRecord record.header second after
      exact ⟨rfl, hsame _, fun _ => ⟨congrArg (· ++ after.data) hpending, hsame _⟩⟩

/-- **Gathering records does what a flat reader does.** -/
theorem mirrors_gather {length : Nat} (hf : Follows (r, source) f)
    (hs : source.script.Steady ∨ ¬ Truncated (r.gather source length).result) :
    Mirrors (r.gather source length) (f.gather length) := by
  -- the flat reader is another after each record, and the reassembly follows it
  fun_induction gather r source length generalizing f with
  | case1 r source hle =>
      rw [FlatReader.gather_of_le (hf.buffered ▸ hle)]
      exact ⟨rfl, hf.buffered, fun _ => hf⟩
  | case2 r source hle note reply e =>
      rename_i he
      have hread := mirrors_readRecord hf (hs.imp_right fun hnot ht => hnot (he ▸ ht).error)
      rw [FlatReader.gather_of_error (hf.buffered ▸ hle) (hread.result.symm.trans he)]
      exact ⟨rfl, hread.buffered, fun hok => hread.follows ((congrArg failedAtRecord he).trans hok)⟩
  | case3 r source hle note reply header hok _ =>
      rename_i ih
      have hread := mirrors_readRecord hf (.inr fun ht => not_truncated_ok header (hok ▸ ht))
      rw [FlatReader.gather_of_ok (hf.buffered ▸ hle) (hread.result.symm.trans hok)]
      have hnext := ih (hread.follows (congrArg failedAtRecord hok))
        (hs.imp_left fun hsteady => steady_readRecord hsteady r)
      exact ⟨hnext.result, hnext.buffered, hnext.follows⟩

/-- **Taking a message does what a flat reader does.** -/
theorem mirrors_takeMessage (hf : Follows (r, source) f) (type : UInt8) (length : Nat)
    (journal : Journal) :
    Mirrors ((r.takeMessage source type length).after journal)
      ⟨ClientHello.ofMessage type (f.buffered.take length), f.drain length, []⟩ := by
  have hresult : (r.takeMessage source type length).result =
      ClientHello.ofMessage type (r.buffered.take length) := by
    rw [takeMessage, ClientHello.ofMessage]
    split <;> rfl
  have hstate := r.state_takeMessage source type length
  have hsame : (r.takeMessage source type length).state.1.buffered = (f.drain length).buffered := by
    rw [hstate]
    exact congrArg (List.drop length) hf.buffered
  refine ⟨?_, hsame, fun _ => ⟨?_, hsame⟩⟩
  · rw [Reply.result_after, hresult, ← hf.buffered]
  · rw [Reply.state_after, hstate]
    exact hf.ahead

/-- **Reading a message does what a flat reader does.** -/
theorem mirrors_readMessage (hf : Follows (r, source) f)
    (hs : source.script.Steady ∨ ¬ Truncated (r.readMessage source).result) :
    Mirrors (r.readMessage source) f.readMessage := by
  rw [readMessage] at hs ⊢
  rw [FlatReader.readMessage, ← hf.buffered]
  cases hseen : messageAhead r.buffered with
  | none => exact ⟨rfl, hf.buffered, fun _ => hf⟩
  | some seen =>
      obtain ⟨type, length⟩ := seen
      rw [hseen] at hs
      have hgather := @mirrors_gather r source f length hf
      dsimp only at hs ⊢
      generalize r.gather source length = reply at hgather hs ⊢
      generalize f.gather length = flat at hgather ⊢
      obtain ⟨result, ⟨after, left⟩, journal⟩ := reply
      obtain ⟨result', f', _⟩ := flat
      cases result with
      | error e =>
          have hsame := hgather (hs.imp_right fun hnot ht => hnot ht.error)
          obtain rfl : .error e = result' := hsame.result
          exact ⟨rfl, hsame.buffered, hsame.follows⟩
      | ok _ =>
          have hsame := hgather (.inr (not_truncated_ok ()))
          obtain rfl : .ok () = result' := hsame.result
          exact mirrors_takeMessage (hsame.follows rfl) type length journal

/-- **Reading a hello does what a flat reader does.** -/
theorem mirrors_readHello (hf : Follows (r, source) f)
    (hs : source.script.Steady ∨ ¬ Truncated (r.readHello source).result) :
    Mirrors (r.readHello source) f.readHello := by
  have hread := @mirrors_readRecord r source f hf
  have hkept := fun hsteady : source.script.Steady => steady_readRecord hsteady r
  cases hreply : r.readRecord source with
  | mk result state journal =>
      rw [hreply] at hread hkept
      cases result with
      | error e =>
          rw [readHello_of_error hreply] at hs ⊢
          have hsame := hread (hs.imp_right fun hnot ht => hnot ht.error)
          rw [FlatReader.readHello_of_error hsame.result.symm]
          exact ⟨rfl, hsame.buffered, hsame.follows⟩
      | ok header =>
          rw [readHello_of_ok hreply] at hs ⊢
          have hsame := hread (.inr (not_truncated_ok header))
          rw [FlatReader.readHello_of_ok hsame.result.symm]
          have hmessage := mirrors_readMessage (hsame.follows rfl) (hs.imp_left hkept)
          exact ⟨hmessage.result, hmessage.buffered, hmessage.follows⟩

end Reassembly

end SplitHello
