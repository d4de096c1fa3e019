import Mathlib.Data.List.Forall2
import SplitHello.Proofs.Splitter.Send

/-!
# Proofs/Splitter/Accounting — no byte is lost or sent twice

Whatever the transport accepts, fails at or swallows, the answers of the sends say exactly which
bytes went out: of each buffer the front, as long as its answer counts.

* `accepted_send`, `accepted_each_send` — one send puts on the wire what its answer accounts for,
  and so does every run of sends;
* `InFragments.whole_and_stops` — a send in fragments is whole if it succeeds and stops at once if
  it does not;
* `accepted_sends` — both together.
-/

namespace SplitHello.Splitter

variable {τ : Type} [Transport τ]

/-- How many bytes of its buffer the answer of a send accounts for. -/
def accounted : Except PartialWrite Nat → Nat
  | .ok n => n
  | .error failed => failed.written

theorem accounted_settled (outcome : Nat × Option Failure) :
    accounted (settled outcome) = outcome.1 := by
  obtain ⟨n, wrong⟩ := outcome
  cases wrong <;> rfl

variable [LawfulTransport τ]

/-- **One send puts on the wire what its answer accounts for.** -/
theorem accepted_send (s : Splitter τ) (bytes : Bytes) :
    accounted (s.send bytes).result ≤ bytes.length ∧
      (s.send bytes).journal.accepted = bytes.take (accounted (s.send bytes).result) := by
  by_cases h : s.started = false ∧ Cuttable bytes
  · obtain ⟨_, _, zones, notes, journal, outcome, _, _, haround, hsending, hjournal, hresult⟩ :=
      send_of_cuttable h.1 h.2
    have hbytes := zoneBytes_zonePlan s.policy haround
    rw [hjournal, hresult, accounted_settled, Journal.accepted_append, Journal.accepted_map_note,
      List.nil_append, ← hbytes]
    exact ⟨hsending.count_le, hsending.accepted_eq⟩
  · have hpassed := passedOn_send h
    rw [← Journal.accepted_calls, hpassed.calls, hpassed.result]
    cases hr : (Transport.write s.transport bytes).result with
    | ok n =>
        refine ⟨LawfulTransport.accepted_le hr, ?_⟩
        exact List.append_nil (bytes.take n)
    | error failure => exact ⟨Nat.zero_le _, rfl⟩

/-- So does every run of sends. -/
theorem accepted_each_send (s : Splitter τ) (buffers : List Bytes) :
    List.Forall₂ (fun buffer answer => accounted answer ≤ buffer.length) buffers
        (Reply.each send s buffers).result ∧
      (Reply.each send s buffers).journal.accepted =
        (List.zipWith (fun buffer answer => buffer.take (accounted answer)) buffers
          (Reply.each send s buffers).result).flatten := by
  induction buffers generalizing s with
  | nil => exact ⟨.nil, rfl⟩
  | cons buffer later ih =>
      obtain ⟨hle, haccepted⟩ := accepted_send s buffer
      obtain ⟨hles, hlater⟩ := ih (s.send buffer).state
      refine ⟨.cons hle hles, ?_⟩
      rw [Reply.journal_each_cons, Journal.accepted_append, haccepted, hlater]
      rfl

omit [Transport τ] [LawfulTransport τ] in
/-- **A send in fragments that succeeds has sent all of its buffer**, and none goes on after a call
that accepted nothing or failed. -/
theorem InFragments.whole_and_stops {s : Splitter τ} {bytes : Bytes} {journal : Journal}
    {answer : Except PartialWrite Nat} (h : InFragments s bytes journal answer) :
    (∀ n, answer = .ok n → n = bytes.length) ∧ journal.StopsAtOnce := by
  obtain ⟨_, _, zones, notes, sent, ⟨count, wrong⟩, -, -, haround, hsending, rfl, rfl⟩ := h
  refine ⟨fun n hn => ?_,
    Journal.stopsAtOnce_append (Journal.not_stops_map_note notes) hsending.stops_last⟩
  cases wrong with
  | some failure => cases hn
  | none =>
      obtain rfl := Except.ok.inj hn
      rw [← zoneBytes_zonePlan s.policy haround]
      exact hsending.count_eq rfl

/-- **What a run of sends puts on the wire is what its answers account for**, buffer by buffer.  A
send in fragments that succeeds has sent all of its buffer, and none calls the transport again
after a call that accepted nothing or failed other than by an interruption. -/
theorem accepted_sends (s : Splitter τ) :
    (∀ buffers : List Bytes,
      let run := Reply.each send s buffers
      List.Forall₂ (fun buffer answer => accounted answer ≤ buffer.length) buffers run.result ∧
        run.journal.accepted =
          (List.zipWith (fun buffer answer => buffer.take (accounted answer)) buffers
            run.result).flatten) ∧
    ∀ buffer : Bytes, s.started = false → Cuttable buffer →
      (∀ n, (s.send buffer).result = .ok n → n = buffer.length) ∧
        (s.send buffer).journal.StopsAtOnce := by
  refine ⟨accepted_each_send s, fun buffer hs hc => ?_⟩
  exact (send_of_cuttable hs hc).whole_and_stops

/-- A transport that accepts five bytes, is interrupted, is reset, and then accepts anything. -/
def resetAfterFive : ScriptedTransport where
  writes := ⟨[.moves 5, .fails (.io ⟨.interrupted, "interrupted"⟩),
    .fails (.io ⟨.connectionReset, "reset"⟩)], none⟩
  flushes := .free
  source := .ofBytes []
  controls := none

/-- A hello of which five bytes are accepted before the connection is reset, and a later buffer. -/
theorem accepted_sends_reset :
    let s := (Splitter.new resetAfterFive .default (.splitMix 0)).state
    s.started = false ∧ Cuttable sampleWrite ∧ (s.send sampleWrite).journal.StopsAtOnce ∧
      (Reply.each send s [sampleWrite, [1, 2]]).journal.accepted =
        sampleWrite.take 5 ++ [1, 2] := by
  intro s
  obtain ⟨hrun, hsend⟩ := accepted_sends s
  have hanswers : (Reply.each send s [sampleWrite, [1, 2]]).result =
      [.error ⟨5, .io ⟨.connectionReset, "reset"⟩⟩, .ok 2] := by decide +kernel
  have haccepted := (hrun [sampleWrite, [1, 2]]).2
  rw [hanswers] at haccepted
  exact ⟨rfl, cuttable_sampleWrite, (hsend _ rfl cuttable_sampleWrite).2, haccepted⟩

end SplitHello.Splitter
