import Mathlib.Data.List.TakeDrop
import SplitHello.Proofs.Splitter.Accounting

/-!
# Proofs/Splitter/WriteAll — writing all sends every byte once

Writing all of a buffer repeats writes, and a write that fails does not say how much of its buffer
it has sent.  That is safe because only interrupted writes are repeated, and those have sent
nothing: a write in fragments, which may fail half way, is never interrupted.

* `InFragments.stops_short` — sending in fragments that fails stops short, and not at an
  interruption;
* `not_isInterrupted_of_begun` — so a write in fragments is never repeated;
* `honest_write` — what a write answers accounts for what it sends as far as repeating it needs;
* `exists_accepted_deliver` — so repeating it sends a front of the bytes, and all if nothing goes
  wrong;
* `accepted_writeAll` — writing all of a buffer does.
-/

namespace SplitHello

/-- What a write answers accounts for what it has had accepted, as far as repeating it needs. -/
structure Honest {τ : Type} (bytes : Bytes) (reply : Reply τ (Except Failure Nat)) : Prop where
  /-- If it succeeds, it says how many bytes were accepted. -/
  counted : ∀ n, reply.result = .ok n → n ≤ bytes.length ∧ reply.journal.accepted = bytes.take n
  /-- If it is interrupted, none was. -/
  interrupted : ∀ failure, reply.result = .error failure → failure.isInterrupted = true →
    reply.journal.accepted = []
  /-- If it fails otherwise, some were not. -/
  failed : ∀ failure, reply.result = .error failure → bytes ≠ [] →
    ∃ n < bytes.length, reply.journal.accepted = bytes.take n

/-- **Repeating honest writes sends a front of the bytes**, and all of them exactly if nothing goes
wrong. -/
theorem exists_accepted_deliver {τ : Type} [Transport τ]
    (hwrite : ∀ (t : τ) (bytes : Bytes), Honest bytes (Transport.write t bytes))
    (refusal : IoError) (t : τ) (bytes : Bytes) :
    ∃ n ≤ bytes.length,
      (Transport.deliver refusal t bytes).journal.accepted = bytes.take n ∧
      ((Transport.deliver refusal t bytes).result.2 = none ↔ n = bytes.length) := by
  fun_induction Transport.deliver refusal t bytes with
  | case1 t => exact ⟨0, Nat.le_refl 0, rfl, iff_of_true rfl rfl⟩
  | case2 t bytes hne reply failure hr hi _ ih =>
      obtain ⟨n, hn, haccepted, hall⟩ := ih
      refine ⟨n, hn, ?_, hall⟩
      rw [Reply.journal_after, Journal.accepted_append, (hwrite t bytes).interrupted failure hr hi,
        haccepted, List.nil_append]
  | case3 t bytes hne reply failure hr hi =>
      obtain ⟨n, hn, haccepted⟩ := (hwrite t bytes).failed failure hr hne
      exact ⟨n, Nat.le_of_lt hn, haccepted, iff_of_false (Option.some_ne_none _) (Nat.ne_of_lt hn)⟩
  | case4 t bytes hne reply hr =>
      refine ⟨0, Nat.zero_le _, ((hwrite t bytes).counted 0 hr).2, ?_⟩
      exact iff_of_false (Option.some_ne_none _)
        (Nat.ne_of_lt (List.length_pos_iff.mpr hne))
  | case5 t bytes hne reply n hr hn _ ih =>
      obtain ⟨hle, hfirst⟩ := (hwrite t bytes).counted n hr
      obtain ⟨m, hm, haccepted, hall⟩ := ih
      rw [List.length_drop] at hm hall
      refine ⟨n + m, by omega, ?_, ?_⟩
      · rw [Reply.journal_after, Reply.journal_map, Journal.accepted_append, hfirst, haccepted,
          ← List.take_add]
      · rw [Reply.result_after, Reply.result_map]
        refine hall.trans ?_
        omega

namespace Splitter

variable {τ : Type} [Transport τ]

omit [Transport τ] in
/-- **Sending in fragments that fails stops short**, and not at an interruption. -/
theorem InFragments.stops_short {s : Splitter τ} {bytes : Bytes} {journal : Journal}
    {failed : PartialWrite} (h : InFragments s bytes journal (.error failed)) :
    failed.written < bytes.length ∧ failed.source.isInterrupted = false := by
  obtain ⟨_, _, zones, _, sent, ⟨n, wrong⟩, -, -, haround, hsending, -, hanswer⟩ := h
  cases wrong with
  | none => cases hanswer
  | some failure =>
      obtain rfl := Except.error.inj hanswer
      rw [← zoneBytes_zonePlan s.policy haround]
      exact hsending.stops_short rfl

/-- A write succeeds as the send does. -/
theorem send_of_write {s : Splitter τ} {bytes : Bytes} {n : Nat}
    (h : (s.write bytes).result = .ok n) : (s.send bytes).result = .ok n := by
  rw [write, Reply.result_map] at h
  cases hsend : (s.send bytes).result with
  | error failed =>
      rw [hsend] at h
      cases h
  | ok m =>
      rw [hsend] at h
      exact congrArg Except.ok (Except.ok.inj h)

/-- A write fails with what the send failed at. -/
theorem exists_failed_of_write {s : Splitter τ} {bytes : Bytes} {failure : Failure}
    (h : (s.write bytes).result = .error failure) :
    ∃ failed, (s.send bytes).result = .error failed ∧ failed.source = failure := by
  rw [write, Reply.result_map] at h
  cases hsend : (s.send bytes).result with
  | error failed =>
      rw [hsend] at h
      exact ⟨failed, rfl, Except.error.inj h⟩
  | ok n =>
      rw [hsend] at h
      cases h

/-- Writing all succeeds exactly if nothing goes wrong. -/
theorem result_writeAll_eq_ok_iff (s : Splitter τ) (bytes : Bytes) :
    (s.writeAll bytes).result = .ok () ↔
      (Transport.deliver .notWrittenWhole s bytes).result.2 = none := by
  rw [writeAll, Reply.result_map]
  split
  · next hnone => exact iff_of_true rfl hnone
  · next failure hsome => exact iff_of_false (fun h => nomatch h) (hsome ▸ Option.some_ne_none _)

variable [LawfulTransport τ]

/-- **A write that begins a fragment never ends in an interruption.** -/
theorem not_isInterrupted_of_begun {s : Splitter τ} {bytes : Bytes} {failure : Failure}
    (hbegun : (s.write bytes).journal.begun ≠ []) (h : (s.write bytes).result = .error failure) :
    failure.isInterrupted = false := by
  obtain ⟨failed, hsend, rfl⟩ := exists_failed_of_write h
  by_cases hfirst : s.started = false ∧ Cuttable bytes
  · have hfragments := send_of_cuttable hfirst.1 hfirst.2
    rw [hsend] at hfragments
    exact hfragments.stops_short.2
  · exact absurd (passedOn_send hfirst).begun hbegun

/-- A send that fails has stopped short of its bytes, and not at an interruption; or it has had
none accepted. -/
theorem send_failed_cases {s : Splitter τ} {bytes : Bytes} {failed : PartialWrite}
    (h : (s.send bytes).result = .error failed) :
    (failed.written < bytes.length ∧ failed.source.isInterrupted = false) ∨ failed.written = 0 := by
  by_cases hfirst : s.started = false ∧ Cuttable bytes
  · have hsend := send_of_cuttable hfirst.1 hfirst.2
    rw [h] at hsend
    exact .inl hsend.stops_short
  · have hpassed := (passedOn_send hfirst).result
    rw [h] at hpassed
    cases hwrite : (Transport.write s.transport bytes).result with
    | ok n =>
        rw [hwrite] at hpassed
        cases hpassed
    | error failure =>
        rw [hwrite] at hpassed
        obtain rfl := Except.error.inj hpassed
        exact .inr rfl

/-- **What a write answers accounts for what it sends** as far as repeating it needs. -/
theorem honest_write (s : Splitter τ) (bytes : Bytes) : Honest bytes (s.write bytes) where
  counted n hn := by
    have haccepted := accepted_send s bytes
    rw [send_of_write hn] at haccepted
    exact haccepted
  interrupted failure hf hi := by
    obtain ⟨failed, hsend, rfl⟩ := exists_failed_of_write hf
    have haccepted := (accepted_send s bytes).2
    obtain ⟨-, hnot⟩ | hzero := send_failed_cases hsend
    · exact absurd (hi.symm.trans hnot) Bool.noConfusion
    · rw [hsend, accounted, hzero] at haccepted
      exact haccepted
  failed failure hf hne := by
    obtain ⟨failed, hsend, -⟩ := exists_failed_of_write hf
    have haccepted := (accepted_send s bytes).2
    rw [hsend] at haccepted
    refine ⟨failed.written, ?_, haccepted⟩
    obtain ⟨hshort, -⟩ | hzero := send_failed_cases hsend
    · exact hshort
    · rw [hzero]
      exact List.length_pos_iff.mpr hne

/-- **Writing all of a buffer sends a front of it, and all of it exactly if it succeeds.**  A write
that begins a fragment, and may fail half way, never ends in an interruption, after which it would
be repeated. -/
theorem accepted_writeAll (s : Splitter τ) (bytes : Bytes) :
    (s.writeAll bytes).journal.accepted <+: bytes ∧
      ((s.writeAll bytes).journal.accepted = bytes ↔ (s.writeAll bytes).result = .ok ()) ∧
      ∀ (buffer : Bytes) (failure : Failure), (s.write buffer).journal.begun ≠ [] →
        (s.write buffer).result = .error failure → failure.isInterrupted = false := by
  obtain ⟨n, hn, haccepted, hall⟩ := exists_accepted_deliver honest_write .notWrittenWhole s bytes
  have hjournal : (s.writeAll bytes).journal.accepted = bytes.take n := haccepted
  refine ⟨hjournal ▸ List.take_prefix n bytes, ?_, fun _ _ => not_isInterrupted_of_begun⟩
  rw [result_writeAll_eq_ok_iff, hall, hjournal, List.take_eq_self_iff]
  omega

/-- A transport that is interrupted, accepts a byte, is interrupted again, and then accepts at most
seven bytes at a time. -/
def dribbles : ScriptedTransport where
  writes := ⟨[.fails (.io ⟨.interrupted, "interrupted"⟩), .moves 1,
    .fails (.io ⟨.interrupted, "interrupted"⟩)], some 7⟩
  flushes := .free
  source := .ofBytes []
  controls := none

/-- Of a hello in fragments, five bytes are sent before the connection is reset, though the answer
does not say so; and bytes that are no hello are all sent, in several writes. -/
theorem accepted_writeAll_reset :
    let s := (Splitter.new resetAfterFive .default (.splitMix 0)).state
    let t := (Splitter.new dribbles .default (.splitMix 0)).state
    ((s.writeAll sampleWrite).journal.accepted = sampleWrite.take 5 ∧
      (s.writeAll sampleWrite).result ≠ .ok () ∧
      Failure.isInterrupted (.io ⟨.connectionReset, "reset"⟩) = false) ∧
    (t.writeAll (List.replicate 20 7)).journal.accepted = List.replicate 20 7 := by
  intro s t
  obtain ⟨-, hall, hnot⟩ := accepted_writeAll s sampleWrite
  obtain ⟨-, hwhole, -⟩ := accepted_writeAll t (List.replicate 20 7)
  have hfive : (s.writeAll sampleWrite).journal.accepted = sampleWrite.take 5 := by decide +kernel
  have hbegun : (s.write sampleWrite).journal.begun ≠ [] := by decide +kernel
  have hfailed : (s.write sampleWrite).result =
      .error (.io ⟨.connectionReset, "reset"⟩) := by decide +kernel
  have hdone : (t.writeAll (List.replicate 20 7)).result = .ok () := by decide +kernel
  refine ⟨⟨hfive, fun hok => ?_, hnot sampleWrite _ hbegun hfailed⟩, hwhole.mpr hdone⟩
  have hshort : sampleWrite.take 5 ≠ sampleWrite := by decide +kernel
  exact hshort (hfive.symm.trans (hall.mpr hok))

end Splitter

end SplitHello
