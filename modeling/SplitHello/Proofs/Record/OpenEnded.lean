import SplitHello.Proofs.Feed
import SplitHello.Proofs.Record.Payloads
import SplitHello.Proofs.Record.Refinement

/-!
# Proofs/Record/OpenEnded — reading from a source that may go on for ever

Reading from a source that may go on for ever need not end: `ReadsHello` and the relations ahead of
it relate it to what it comes to if it does.  Whatever a source hands out, each record that is taken
in has used up a header; and from a source that runs dry reading a hello ends, however the stream is
cut into records.

* `ReadsRecord.took`, `Gathers.usesHeaders` — every record that is taken in has used up a header;
* `exists_readsRecord`, `exists_gathers` — each call on a source that runs dry ends;
* `ReadsHello.eq_readHello` — on a scripted source it comes to what a reassembly does;
* `ReadsHello.size_le` — on a source that is always interrupted it does not end;
* `readHello_ends` — reading a hello ends if the source runs dry, with no more records than there
  were headers.
-/

namespace SplitHello.OpenEnded

open Reassembly (messageAhead)

variable {σ : Type}

/-! ## A reader that need not come to an end -/

/-- What a call that looks at no source does. -/
def besides {α : Type} (source : σ) (reply : Reply (Reassembly × Source) α) :
    Reply (Reassembly × σ) α := reply.within fun state => (state.1, source)

/-- Reading one record ends, and this is what it comes to. -/
inductive ReadsRecord (feed : Feed σ) (r : Reassembly) (source : σ) :
    Reply (Reassembly × σ) (Except ReadError RecordHeader) → Prop
  /-- The source ended or failed inside the header. -/
  | noHeader {buffer : Buffer} {after : σ} {failure : Failure} {journal : Journal}
      (h : feed.FillsTo r.atHand source RecordHeader.size
        ⟨some failure, (buffer, after), journal⟩) :
      ReadsRecord feed r source
        ⟨.error (.truncatedStream RecordHeader.size failure), (r.dropPending, after), journal⟩
  /-- The header was refused. -/
  | refused {buffer : Buffer} {after : σ} {e : ParseError} {journal : Journal}
      (h : feed.FillsTo r.atHand source RecordHeader.size ⟨none, (buffer, after), journal⟩)
      (hparse : RecordHeader.parse buffer.bytes = .error e) :
      ReadsRecord feed r source ⟨.error (.notTls e), (r.dropPending, after), journal⟩
  /-- The source ended or failed inside the payload. -/
  | noPayload {first second : Buffer} {between after : σ} {header : RecordHeader}
      {failure : Failure} {journal more : Journal}
      (h : feed.FillsTo r.atHand source RecordHeader.size ⟨none, (first, between), journal⟩)
      (hparse : RecordHeader.parse first.bytes = .ok header)
      (hmore : feed.FillsTo first between header.totalLength
        ⟨some failure, (second, after), more⟩) :
      ReadsRecord feed r source
        ⟨.error (.truncatedStream header.totalLength failure), (r.dropPending, after),
          journal ++
            .note (.readHeader header.contentType header.version header.payloadLength) :: more⟩
  /-- The record was taken in. -/
  | taken {first second : Buffer} {between after : σ} {header : RecordHeader}
      {journal more : Journal}
      (h : feed.FillsTo r.atHand source RecordHeader.size ⟨none, (first, between), journal⟩)
      (hparse : RecordHeader.parse first.bytes = .ok header)
      (hmore : feed.FillsTo first between header.totalLength ⟨none, (second, after), more⟩) :
      ReadsRecord feed r source
        ((besides after (r.takeRecord header second (.ofBytes []))).after (journal ++
          .note (.readHeader header.contentType header.version header.payloadLength) :: more))

/-- Reading records until at least `length` bytes are buffered ends, and this is what it comes
to. -/
inductive Gathers (feed : Feed σ) (length : Nat) :
    Reassembly → σ → Reply (Reassembly × σ) (Except ReadError Unit) → Prop
  /-- They are. -/
  | enough {r : Reassembly} {source : σ} (hle : length ≤ r.buffered.length) :
      Gathers feed length r source ⟨.ok (), (r, source), []⟩
  /-- The next record could not be read. -/
  | failed {r : Reassembly} {source : σ} {e : ReadError} {state : Reassembly × σ}
      {journal : Journal} (hlt : ¬ length ≤ r.buffered.length)
      (h : ReadsRecord feed r source ⟨.error e, state, journal⟩) :
      Gathers feed length r source ⟨.error e, state,
        .note (.messageContinues (length - r.buffered.length)) :: journal⟩
  /-- It was taken in. -/
  | more {r after : Reassembly} {source left : σ} {header : RecordHeader} {journal : Journal}
      {reply : Reply (Reassembly × σ) (Except ReadError Unit)}
      (hlt : ¬ length ≤ r.buffered.length)
      (h : ReadsRecord feed r source ⟨.ok header, (after, left), journal⟩)
      (hlater : Gathers feed length after left reply) :
      Gathers feed length r source
        (reply.after (.note (.messageContinues (length - r.buffered.length)) :: journal))

/-- Reading records until the message is there of which something is buffered, and decoding it,
ends, and this is what it comes to. -/
inductive ReadsMessage (feed : Feed σ) (r : Reassembly) (source : σ) :
    Reply (Reassembly × σ) (Except ReadError ClientHello) → Prop
  /-- Not even its header is there. -/
  | noHeader (hahead : messageAhead r.buffered = none) :
      ReadsMessage feed r source ⟨.error (.notTls (.bufferTooShort ClientHello.messageHeaderLength
        r.buffered.length)), (r, source), []⟩
  /-- The rest could not be read. -/
  | failed {type : UInt8} {length : Nat} {e : ReadError} {state : Reassembly × σ}
      {journal : Journal} (hahead : messageAhead r.buffered = some (type, length))
      (h : Gathers feed length r source ⟨.error e, state, journal⟩) :
      ReadsMessage feed r source ⟨.error e, state, journal⟩
  /-- It is decoded. -/
  | decoded {type : UInt8} {length : Nat} {after : Reassembly} {left : σ} {journal : Journal}
      (hahead : messageAhead r.buffered = some (type, length))
      (h : Gathers feed length r source ⟨.ok (), (after, left), journal⟩) :
      ReadsMessage feed r source
        ((besides left (after.takeMessage (.ofBytes []) type length)).after journal)

/-- Reading records until a whole message is there, and decoding it as a client hello, ends, and
this is what it comes to. -/
inductive ReadsHello (feed : Feed σ) (r : Reassembly) (source : σ) :
    Reply (Reassembly × σ) (Except ReadError ClientHello) → Prop
  /-- The first record could not be read. -/
  | failed {e : ReadError} {state : Reassembly × σ} {journal : Journal}
      (h : ReadsRecord feed r source ⟨.error e, state, journal⟩) :
      ReadsHello feed r source ⟨.error e, state, journal⟩
  /-- It was taken in. -/
  | message {header : RecordHeader} {after : Reassembly} {left : σ} {journal : Journal}
      {reply : Reply (Reassembly × σ) (Except ReadError ClientHello)}
      (h : ReadsRecord feed r source ⟨.ok header, (after, left), journal⟩)
      (hlater : ReadsMessage feed after left reply) :
      ReadsHello feed r source (reply.after journal)

variable {feed : Feed σ} {source : σ} {r : Reassembly} {length : Nat}

/-! ## What is used up -/

/-- Each record that was taken in between has used up the bytes of a header. -/
def UsesHeaders (r : Reassembly) (journal : Journal) (after : Reassembly) : Prop :=
  RecordHeader.size * journal.payloads.length + after.pendingBytes.length ≤
    r.pendingBytes.length + journal.handedOut

section UsesHeaders

variable {after : Reassembly} {journal first second : Journal}

/-- Where no record is taken in and nothing is pending in the end, no header is used up. -/
theorem usesHeaders_dropPending (h : journal.payloads = []) :
    UsesHeaders r journal r.dropPending := by
  rw [UsesHeaders, h]
  exact Nat.zero_le _

theorem usesHeaders_nil (r : Reassembly) : UsesHeaders r [] r := Nat.le_of_eq (Nat.zero_add _)

theorem UsesHeaders.append {middle : Reassembly} (h : UsesHeaders r first middle)
    (h' : UsesHeaders middle second after) : UsesHeaders r (first ++ second) after := by
  rw [UsesHeaders] at h h' ⊢
  rw [Journal.payloads_append, Journal.handedOut_append, List.length_append, Nat.mul_add]
  omega

/-- The note that a message goes on uses up nothing. -/
theorem UsesHeaders.messageContinues (h : UsesHeaders r journal after) (missing : Nat) :
    UsesHeaders r (.note (.messageContinues missing) :: journal) after := by
  rwa [UsesHeaders, Journal.payloads_messageContinues, Journal.handedOut_note]

end UsesHeaders

theorem payloads_of_fillsTo {buffer : Buffer} {n : Nat}
    {reply : Reply (Buffer × σ) (Option Failure)} (h : feed.FillsTo buffer source n reply) :
    reply.journal.payloads = [] := Journal.payloads_eq_nil h.filledTo.reads

/-- What reading a record comes to. -/
structure Took (feed : Feed σ) (r : Reassembly) (source : σ)
    (reply : Reply (Reassembly × σ) (Except ReadError RecordHeader)) : Prop where
  /-- If it is taken in, it has used up its header. -/
  usesHeaders : UsesHeaders r reply.journal reply.state.1
  /-- If nothing went wrong, it is taken in. -/
  payloads : ∀ header, reply.result = .ok header → reply.journal.payloads.length = 1
  /-- If nothing went wrong, every call went on. -/
  leads : ∀ header, reply.result = .ok header →
    feed.Leads source reply.journal.handedOut reply.state.2

/-- A record that is not taken in uses nothing up. -/
theorem took_of_error {e : ReadError} {after : σ} {journal : Journal}
    (h : journal.payloads = []) :
    Took feed r source ⟨.error e, (r.dropPending, after), journal⟩ where
  usesHeaders := usesHeaders_dropPending h
  payloads _ hok := by cases hok
  leads _ hok := by cases hok

/-- Between two fillings it is noted what the header says; no payload is taken in with either. -/
theorem payloads_of_fillsTo_append {first second : Buffer} {between : σ} {m n : Nat}
    {reply later : Reply (Buffer × σ) (Option Failure)} (h : feed.FillsTo first source m reply)
    (hmore : feed.FillsTo second between n later) (header : RecordHeader) :
    (reply.journal ++ .note (.readHeader header.contentType header.version
      header.payloadLength) :: later.journal).payloads = [] := by
  rw [Journal.payloads_append, payloads_of_fillsTo h, Journal.payloads_readHeader]
  exact payloads_of_fillsTo hmore

/-- **A record that is taken in has used up its header.** -/
theorem ReadsRecord.took {reply : Reply (Reassembly × σ) (Except ReadError RecordHeader)}
    (h : ReadsRecord feed r source reply) : Took feed r source reply := by
  cases h with
  | noHeader h => exact took_of_error (payloads_of_fillsTo h)
  | refused h _ => exact took_of_error (payloads_of_fillsTo h)
  | noPayload h _ hmore => exact took_of_error (payloads_of_fillsTo_append h hmore _)
  | @taken first second between after header journal more h _ hmore =>
      have hnone := payloads_of_fillsTo_append h hmore header
      dsimp only at hnone
      have hhandedOut : (journal ++ .note (.readHeader header.contentType header.version
          header.payloadLength) :: more).handedOut = journal.handedOut + more.handedOut := by
        rw [Journal.handedOut_append, Journal.handedOut_note]
      refine ⟨?_, fun _ _ => ?_, fun _ _ => ?_⟩
      · have hlength := h.filledTo.length_eq
        have hlength' := hmore.filledTo.length_eq
        have henough := hmore.filledTo.enough rfl
        have hsize : RecordHeader.size ≤ header.totalLength := Nat.le_add_right _ _
        have hpending : (r.takeRecord header second (.ofBytes [])).state.1.pendingBytes.length =
            second.bytes.length - header.totalLength := by
          rw [Reassembly.pendingBytes_takeRecord, List.length_drop]
        rw [Reassembly.bytes_atHand] at hlength
        dsimp only at hlength hlength' henough
        rw [UsesHeaders, Reply.journal_after, Journal.payloads_append, hnone,
          Journal.handedOut_append, hhandedOut]
        change RecordHeader.size * 1 +
          (r.takeRecord header second (.ofBytes [])).state.1.pendingBytes.length ≤
            r.pendingBytes.length + (journal.handedOut + more.handedOut + 0)
        omega
      · rw [Reply.journal_after, Journal.payloads_append, hnone]
        rfl
      · rw [Reply.journal_after, Journal.handedOut_append, hhandedOut]
        exact (h.filledTo.leads rfl).trans (hmore.filledTo.leads rfl)

/-- **So has each record that is gathered.** -/
theorem Gathers.usesHeaders {reply : Reply (Reassembly × σ) (Except ReadError Unit)}
    (h : Gathers feed length r source reply) : UsesHeaders r reply.journal reply.state.1 := by
  induction h with
  | enough => exact usesHeaders_nil _
  | failed _ h => exact h.took.usesHeaders.messageContinues _
  | more _ h _ ih => exact (h.took.usesHeaders.messageContinues _).append ih

/-- Decoding a message uses no header up. -/
theorem usesHeaders_takeMessage (r : Reassembly) (source : σ) (type : UInt8) (length : Nat) :
    UsesHeaders r (besides source (r.takeMessage (.ofBytes []) type length)).journal
      (besides source (r.takeMessage (.ofBytes []) type length)).state.1 := by
  rw [besides, Reply.journal_within, Reply.state_within, Reassembly.state_takeMessage, UsesHeaders,
    Reassembly.payloads_takeMessage]
  exact Nat.le_trans (Nat.le_of_eq (Nat.zero_add _)) (Nat.le_add_right _ _)

theorem ReadsMessage.usesHeaders {reply : Reply (Reassembly × σ) (Except ReadError ClientHello)}
    (h : ReadsMessage feed r source reply) : UsesHeaders r reply.journal reply.state.1 := by
  cases h with
  | noHeader => exact usesHeaders_nil r
  | failed _ h => exact h.usesHeaders
  | decoded _ h => exact h.usesHeaders.append (usesHeaders_takeMessage _ _ _ _)

/-- **And so has each record that is taken in while a hello is read.** -/
theorem ReadsHello.usesHeaders {reply : Reply (Reassembly × σ) (Except ReadError ClientHello)}
    (h : ReadsHello feed r source reply) : UsesHeaders r reply.journal reply.state.1 := by
  cases h with
  | failed h => exact h.took.usesHeaders
  | message h hlater => exact h.took.usesHeaders.append hlater.usesHeaders

/-! ## Whether it ends -/

/-- **Reading a record from a source that runs dry ends.** -/
theorem exists_readsRecord (hdry : Acc feed.Step source) (r : Reassembly) :
    ∃ reply, ReadsRecord feed r source reply := by
  obtain ⟨⟨failed, ⟨first, between⟩, journal⟩, h⟩ :=
    Feed.exists_fillsTo hdry r.atHand RecordHeader.size
  cases failed with
  | some failure => exact ⟨_, .noHeader h⟩
  | none =>
      cases hparse : RecordHeader.parse first.bytes with
      | error e => exact ⟨_, .refused h hparse⟩
      | ok header =>
          have hbetween : Acc feed.Step between := (h.filledTo.leads rfl).acc hdry
          obtain ⟨⟨failed, ⟨second, after⟩, more⟩, hmore⟩ :=
            Feed.exists_fillsTo hbetween first header.totalLength
          cases failed with
          | some failure => exact ⟨_, .noPayload h hparse hmore⟩
          | none => exact ⟨_, .taken h hparse hmore⟩

/-- **Gathering from a source that runs dry ends**, because each record either brings the end of the
source nearer or leaves less pending. -/
theorem exists_gathers (hdry : Acc feed.Step source) (r : Reassembly) (length : Nat) :
    ∃ reply, Gathers feed length r source reply := by
  -- By induction on the source, and while it stands still on what is pending.
  have hrow := hdry.transGen
  induction hrow generalizing r with
  | intro source _ ihsource =>
    induction hpending : r.pendingBytes.length using Nat.strong_induction_on generalizing r with
    | h pending ihpending =>
      by_cases hle : length ≤ r.buffered.length
      · exact ⟨_, .enough hle⟩
      · obtain ⟨⟨result, ⟨after, left⟩, journal⟩, h⟩ := exists_readsRecord hdry r
        cases result with
        | error e => exact ⟨_, .failed hle h⟩
        | ok header =>
            obtain ⟨reply, hlater⟩ : ∃ reply, Gathers feed length after left reply := by
              have hless := h.took.usesHeaders
              rw [UsesHeaders, h.took.payloads header rfl] at hless
              have hleads := h.took.leads header rfl
              dsimp only at hless hleads
              generalize journal.handedOut = handedOut at hless hleads
              cases hleads with
              | still =>
                  have hsize : RecordHeader.size = 5 := rfl
                  exact ihpending _ (by omega) after rfl
              | on h => exact ihsource left h (acc_transGen_iff.mp (hdry.transGen.inv h)) after
            exact ⟨_, .more hle h hlater⟩

/-- Reading the message of which something is buffered ends. -/
theorem exists_readsMessage (hdry : Acc feed.Step source) (r : Reassembly) :
    ∃ reply, ReadsMessage feed r source reply := by
  cases hahead : messageAhead r.buffered with
  | none => exact ⟨_, .noHeader hahead⟩
  | some ahead =>
      obtain ⟨type, length⟩ := ahead
      obtain ⟨⟨result, ⟨after, left⟩, journal⟩, h⟩ := exists_gathers hdry r length
      cases result with
      | error e => exact ⟨_, .failed hahead h⟩
      | ok _ => exact ⟨_, .decoded hahead h⟩

/-- **Reading a hello from a source that runs dry ends.** -/
theorem exists_readsHello (hdry : Acc feed.Step source) (r : Reassembly) :
    ∃ reply, ReadsHello feed r source reply := by
  obtain ⟨⟨result, ⟨after, left⟩, journal⟩, h⟩ := exists_readsRecord hdry r
  cases result with
  | error e => exact ⟨_, .failed h⟩
  | ok header =>
      have hleft : Acc feed.Step left := (h.took.leads header rfl).acc hdry
      obtain ⟨reply, hlater⟩ := exists_readsMessage hleft after
      exact ⟨_, .message h hlater⟩

/-- Reading a hello from a source that is always interrupted does not end, unless a header is
pending. -/
theorem ReadsHello.size_le (hfeed : ∀ source room, ∃ failure,
      (feed.ask source room).1 = .error failure ∧ failure.isInterrupted = true)
    {reply : Reply (Reassembly × σ) (Except ReadError ClientHello)}
    (h : ReadsHello feed r source reply) : RecordHeader.size ≤ r.pendingBytes.length := by
  have hfill : ∀ {reply : Reply (Buffer × σ) (Option Failure)},
      feed.FillsTo r.atHand source RecordHeader.size reply →
        RecordHeader.size ≤ r.pendingBytes.length := by
    intro reply h
    rw [← Reassembly.bytes_atHand]
    cases h with
    | enough hn => exact hn
    | fill _ h => exact Nat.sub_eq_zero_iff_le.mp (h.need_eq_zero hfeed)
  have hread : ∀ {reply : Reply (Reassembly × σ) (Except ReadError RecordHeader)},
      ReadsRecord feed r source reply → RecordHeader.size ≤ r.pendingBytes.length := by
    intro reply h
    cases h with
    | noHeader h | refused h | noPayload h | taken h => exact hfill h
  cases h with
  | failed h | message h => exact hread h

/-! ## From a scripted source -/

section Scripted

variable {source : Source}

theorem ReadsRecord.eq_readRecord
    {reply : Reply (Reassembly × Source) (Except ReadError RecordHeader)}
    (h : ReadsRecord .ofSource r source reply) : reply = r.readRecord source := by
  have hatHand : r.pending.getD .empty = r.atHand := rfl
  rw [Reassembly.readRecord, hatHand]
  cases h with
  | noHeader h => rw [← h.eq_fillTo]
  | refused h hparse =>
      rw [← h.eq_fillTo]
      simp only [hparse]
  | noPayload h hparse hmore =>
      rw [← h.eq_fillTo]
      simp only [hparse, ← hmore.eq_fillTo]
  | taken h hparse hmore =>
      rw [← h.eq_fillTo]
      simp only [hparse, ← hmore.eq_fillTo]
      rfl

theorem Gathers.eq_gather {reply : Reply (Reassembly × Source) (Except ReadError Unit)}
    (h : Gathers .ofSource length r source reply) : reply = r.gather source length := by
  induction h with
  | enough hle => rw [Reassembly.gather, if_pos hle]
  | failed hlt h =>
      rw [Reassembly.gather, if_neg hlt]
      have hread := h.eq_readRecord
      dsimp only
      split
      · next he =>
        rw [← hread] at he ⊢
        cases he
        rfl
      · next hok =>
        rw [← hread] at hok
        cases hok
  | more hlt h _ ih =>
      rw [Reassembly.gather, if_neg hlt]
      have hread := h.eq_readRecord
      dsimp only
      split
      · next he =>
        rw [← hread] at he
        cases he
      · rw [← hread, ih]

theorem besides_takeMessage (r : Reassembly) (source : Source) (type : UInt8) (length : Nat) :
    besides source (r.takeMessage (.ofBytes []) type length) =
      r.takeMessage source type length := by
  rw [Reassembly.takeMessage, Reassembly.takeMessage]
  split <;> rfl

theorem ReadsMessage.eq_readMessage
    {reply : Reply (Reassembly × Source) (Except ReadError ClientHello)}
    (h : ReadsMessage .ofSource r source reply) : reply = r.readMessage source := by
  rw [Reassembly.readMessage]
  cases h with
  | noHeader hahead => rw [hahead]
  | failed hahead h =>
      rw [hahead]
      dsimp only
      rw [← h.eq_gather]
  | @decoded type length after left journal hahead h =>
      rw [hahead]
      dsimp only
      rw [← h.eq_gather]
      dsimp only
      rw [besides_takeMessage]

/-- **From a scripted source reading a hello comes to what it is.** -/
theorem ReadsHello.eq_readHello
    {reply : Reply (Reassembly × Source) (Except ReadError ClientHello)}
    (h : ReadsHello .ofSource r source reply) : reply = r.readHello source := by
  cases h with
  | failed h => rw [Reassembly.readHello_of_error h.eq_readRecord.symm]
  | message h hlater =>
      rw [Reassembly.readHello_of_ok h.eq_readRecord.symm, hlater.eq_readMessage]

end Scripted

/-- **Reading a hello ends if the source runs dry**, whatever the source hands out and whatever was
held before; and for each record that it takes in, empty ones among them, five of the bytes that
were pending or came from the source are used up.  Every scripted source runs dry, and from it
reading a hello comes to what a reassembly answers, and to nothing else. -/
theorem readHello_ends :
    (∀ {σ : Type} (feed : Feed σ) (source : σ) (r : Reassembly),
      (feed.RunsDry source → ∃ reply, ReadsHello feed r source reply) ∧
      ∀ reply, ReadsHello feed r source reply → reply.journal.payloads.length ≤
        (r.pendingBytes.length + reply.journal.handedOut) / RecordHeader.size) ∧
    ∀ (r : Reassembly) (source : Source), Feed.ofSource.RunsDry source ∧
      ∀ reply, ReadsHello .ofSource r source reply ↔ reply = r.readHello source := by
  refine ⟨fun {σ} feed source r => ⟨fun hdry => ?_, fun reply h => ?_⟩, fun r source => ?_⟩
  · exact exists_readsHello (Feed.runsDry_iff_acc.mp hdry) r
  · refine (Nat.le_div_iff_mul_le (by decide)).mpr ?_
    rw [Nat.mul_comm]
    exact Nat.le_trans (Nat.le_add_right _ _) h.usesHeaders
  · have hdry : Feed.ofSource.RunsDry source := Feed.runsDry_ofSource source
    refine ⟨hdry, fun reply => ⟨ReadsHello.eq_readHello, ?_⟩⟩
    rintro rfl
    obtain ⟨reply, h⟩ := exists_readsHello (Feed.runsDry_iff_acc.mp hdry) r
    exact h.eq_readHello ▸ h

/-- A source that announces a message of nine bytes and then sends empty records. -/
def emptyRecords : Source :=
  .ofBytes
    ([⟨0x0301, [1, 0, 0, 9]⟩, ⟨0x0301, []⟩, ⟨0x0301, []⟩, ⟨0x0301, []⟩].flatMap Record.encode)

/-- All of its records are taken in before the source ends, and they are as many as could be. -/
theorem readHello_ends_emptyRecords :
    Feed.ofSource.RunsDry emptyRecords ∧
      ∃ reply, ReadsHello .ofSource .new emptyRecords reply ∧
        reply.journal.payloads.length ≤ (0 + reply.journal.handedOut) / 5 ∧
        reply.journal.payloads = [(4, 15), (4, 10), (4, 5), (4, 0)] ∧
        reply.journal.handedOut = 24 := by
  obtain ⟨hdry, hsame⟩ := readHello_ends.2 .new emptyRecords
  obtain ⟨hends, hcount⟩ := readHello_ends.1 .ofSource emptyRecords .new
  obtain ⟨reply, hreply⟩ := hends hdry
  obtain rfl : reply = Reassembly.new.readHello emptyRecords := (hsame reply).mp hreply
  exact ⟨hdry, _, hreply, hcount _ hreply, by decide +kernel, by decide +kernel⟩

end SplitHello.OpenEnded
