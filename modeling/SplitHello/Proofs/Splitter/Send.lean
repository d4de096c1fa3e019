import SplitHello.Proofs.Splitter.Opening
import SplitHello.Proofs.Splitter.Sending

/-!
# Proofs/Splitter/Send — what one send does

A send either cuts its bytes up or passes them on, and which of the two is decided before the
transport is called.

* `send_of_cuttable` — the first send of bytes that can be cut up sends the zones around the name in
  fragments;
* `passedOn_send` — every other send is one call on the transport, and draws and waits for nothing;
* `started_send` — from then on the splitter counts as started.
-/

namespace SplitHello

/-! ## Notes among other events -/

namespace Journal

@[simp] theorem accepted_map_note (notes : List Note) : accepted (notes.map .note) = [] := by
  induction notes with
  | nil => rfl
  | cons _ _ ih => exact ih

@[simp] theorem offers_map_note (notes : List Note) : offers (notes.map .note) = [] := by
  induction notes with
  | nil => rfl
  | cons _ _ ih => exact ih

@[simp] theorem calls_map_note (notes : List Note) : calls (notes.map .note) = [] := by
  induction notes with
  | nil => rfl
  | cons _ _ ih => exact ih

@[simp] theorem pauses_map_note (notes : List Note) : pauses (notes.map .note) = [] := by
  induction notes with
  | nil => rfl
  | cons _ _ ih => exact ih

theorem not_stops_map_note (notes : List Note) : ∀ e ∈ notes.map Event.note, e.stops = false := by
  intro e he
  obtain ⟨n, -, rfl⟩ := List.mem_map.mp he
  rfl

/-- What was accepted shows in the calls. -/
theorem accepted_calls (journal : Journal) : journal.calls.accepted = journal.accepted := by
  induction journal with
  | nil => rfl
  | cons e later ih =>
      rw [calls, List.filter_cons]
      cases e with
      | pause | note => exact ih
      | _ => exact congrArg (acceptedIn _ ++ ·) ih

/-- What was offered shows in the calls. -/
theorem offers_calls (journal : Journal) : journal.calls.offers = journal.offers := by
  rw [offers, offers, calls, List.filterMap_filter]
  refine congrArg (fun view => List.filterMap view journal) (funext fun e => ?_)
  cases e <;> rfl

end Journal

/-! ## One send -/

namespace Splitter

variable {τ : Type} [Transport τ]

/-- What a send answers for the bytes that its zones had accepted and what went wrong. -/
def settled : Nat × Option Failure → Except PartialWrite Nat
  | (n, none) => .ok n
  | (n, some failure) => .error ⟨n, failure⟩

/-- The zones of a write taken together are its bytes. -/
theorem zoneBytes_zonePlan {bytes name : Bytes} {zones : Zones} (policy : Policy)
    (h : Zones.around bytes name = some zones) : zoneBytes (zonePlan policy zones) = bytes := by
  obtain ⟨happend, -⟩ := append_zones h
  rw [← happend, zonePlan, zoneBytes_cons, zoneBytes_cons, zoneBytes_cons, List.append_assoc]
  exact congrArg (zones.before ++ ·) (congrArg (zones.serverName ++ ·) (List.append_nil _))

/-- Sending zones gives such a journal as it should, and answers for what was accepted. -/
theorem sending_sendZones [LawfulTransport τ] (s : Splitter τ) (zones : Zones) :
    ∃ outcome,
      Sending s.policy.delayMs s.words 0 (zonePlan s.policy zones) (s.sendZones zones).journal
        outcome ∧ (s.sendZones zones).result = settled outcome := by
  obtain ⟨n, hsending, hwritten⟩ := sending_writeZones
    ⟨s.transport, s.words, s.policy.delayMs, 0⟩ (zonePlan s.policy zones)
  rw [Nat.zero_add] at hwritten
  rw [sendZones]
  generalize writeZones (⟨s.transport, s.words, s.policy.delayMs, 0⟩ : FragmentWriter τ)
    (zonePlan s.policy zones) = reply at hsending hwritten ⊢
  obtain ⟨wrong, writer, journal⟩ := reply
  obtain rfl : writer.written = n := hwritten
  cases wrong with
  | none => exact ⟨_, hsending, rfl⟩
  | some failure => exact ⟨_, hsending, rfl⟩

/-- What sending bytes in fragments is: behind remarks, the zones around the host name of the hello
that can be read off them are sent as the policy cuts them, and the answer is for what was
accepted. -/
def InFragments (s : Splitter τ) (bytes : Bytes) (journal : Journal)
    (answer : Except PartialWrite Nat) : Prop :=
  ∃ (hello : ClientHello) (name : Bytes) (zones : Zones) (notes : List Note) (sent : Journal)
    (outcome : Nat × Option Failure),
    (readHello (.ofBytes bytes)).result = .ok hello ∧ hello.sni = some name ∧
    Zones.around bytes name = some zones ∧
    Sending s.policy.delayMs s.words 0 (zonePlan s.policy zones) sent outcome ∧
    journal = notes.map .note ++ sent ∧ answer = settled outcome

omit [Transport τ] in
/-- Sending bytes in fragments begins one. -/
theorem InFragments.begun_ne_nil {s : Splitter τ} {bytes : Bytes} {journal : Journal}
    {answer : Except PartialWrite Nat} (h : InFragments s bytes journal answer) :
    journal.begun ≠ [] := by
  obtain ⟨hello, name, zones, notes, sent, outcome, -, -, haround, hsending, rfl, -⟩ := h
  have hbytes : zoneBytes (zonePlan s.policy zones) ≠ [] := by
    obtain ⟨hne, -, happend, -⟩ := around_eq_some_iff.mp haround
    rw [zoneBytes_zonePlan s.policy haround, ← happend]
    exact List.append_ne_nil_of_left_ne_nil (List.append_ne_nil_of_right_ne_nil _ hne) _
  rw [Journal.begun_append]
  exact List.append_ne_nil_of_right_ne_nil _ (hsending.begun_ne_nil hbytes)

/-- The first send of bytes that are cut up sends the zones, with remarks ahead of them. -/
theorem send_eq_sendZones {s : Splitter τ} {bytes : Bytes} {zones : Zones} (hs : s.started = false)
    (hzones : (opening bytes).1 = some zones) :
    let reply := { s with started := true }.sendZones zones
    (s.send bytes).result = reply.result ∧ (s.send bytes).state.words = reply.state.words ∧
      (s.send bytes).journal =
        (.beganWrite bytes.length true :: (opening bytes).2).map .note ++ reply.journal := by
  have hfirst : sendFirst { s with started := true } bytes =
      ({ s with started := true }.sendZones zones).after ((opening bytes).2.map .note) := by
    simp only [sendFirst, hzones]
  rw [send, hs, if_neg Bool.false_ne_true, hfirst]
  exact ⟨rfl, words_releaseWrite _ _, rfl⟩

/-- **The first send of bytes that can be cut up sends them in fragments.** -/
theorem send_of_cuttable [LawfulTransport τ] {s : Splitter τ} {bytes : Bytes}
    (hs : s.started = false) (hc : Cuttable bytes) :
    InFragments s bytes (s.send bytes).journal (s.send bytes).result := by
  obtain ⟨zones, hz⟩ := exists_zones_of_cuttable hc
  obtain ⟨hello, name, hr, hname, haround⟩ := opening_eq_some_iff.mp hz
  obtain ⟨outcome, hsending, hsettled⟩ := sending_sendZones { s with started := true } zones
  obtain ⟨hresult, -, hjournal⟩ := send_eq_sendZones hs hz
  exact ⟨hello, name, zones, _, _, outcome, hr, hname, haround, hsending, hjournal,
    hresult.trans hsettled⟩

/-- What passing bytes on is: one call on the transport, whose answer is the answer, and nothing
else. -/
structure PassedOn {α : Type} (s : Splitter τ) (bytes : Bytes) (answer : Except Failure Nat → α)
    (reply : Reply (Splitter τ) α) : Prop where
  /-- One call is made, and it offers the bytes as they are. -/
  calls : reply.journal.calls = [.write bytes (Transport.write s.transport bytes).result]
  /-- Its answer is the answer. -/
  result : reply.result = answer (Transport.write s.transport bytes).result
  /-- The transport is as the call left it. -/
  transport : reply.state.transport = (Transport.write s.transport bytes).state
  /-- No random word is drawn. -/
  words : reply.state.words = s.words
  /-- No pause is made. -/
  pauses : reply.journal.pauses = []
  /-- No fragment is begun. -/
  begun : reply.journal.begun = []

/-- An answer may be read differently. -/
theorem PassedOn.map {α β : Type} {s : Splitter τ} {bytes : Bytes}
    {answer : Except Failure Nat → α} {reply : Reply (Splitter τ) α}
    (h : PassedOn s bytes answer reply) (f : α → β) :
    PassedOn s bytes (fun outcome => f (answer outcome)) (reply.map f) where
  calls := h.calls
  result := congrArg f h.result
  transport := h.transport
  words := h.words
  pauses := h.pauses
  begun := h.begun

/-- Remarks ahead of a call that passes bytes on change nothing about it. -/
theorem PassedOn.after {α : Type} {s : Splitter τ} {bytes : Bytes}
    {answer : Except Failure Nat → α} {reply : Reply (Splitter τ) α}
    (h : PassedOn s bytes answer reply) (notes : List Note)
    (hbegun : Journal.begun (notes.map .note) = []) :
    PassedOn s bytes answer (reply.after (notes.map .note)) where
  calls := by rw [Reply.journal_after, Journal.calls_append, Journal.calls_map_note]; exact h.calls
  result := h.result
  transport := h.transport
  words := h.words
  pauses := by
    rw [Reply.journal_after, Journal.pauses_append, Journal.pauses_map_note]
    exact h.pauses
  begun := by rw [Reply.journal_after, Journal.begun_append, hbegun]; exact h.begun

/-- Offering bytes once passes them on. -/
theorem passedOn_offerOnce [LawfulTransport τ] (s : Splitter τ) (bytes : Bytes) :
    PassedOn s bytes (·.mapError (⟨0, ·⟩)) (s.offerOnce bytes) := by
  have hjournal := LawfulTransport.journal_write s.transport bytes
  cases hr : (Transport.write s.transport bytes).result with
  | ok n =>
      simp only [offerOnce, hr]
      exact ⟨by rw [hjournal, hr]; rfl, by rw [hr]; rfl, rfl, rfl, by rw [hjournal]; rfl,
        by rw [hjournal]; rfl⟩
  | error failure =>
      simp only [offerOnce, hr]
      refine ⟨?_, by rw [hr]; rfl, rfl, rfl, ?_, ?_⟩
      all_goals
        rw [hjournal, hr]
        cases failure <;> rfl

/-- Giving the lock back after the call changes nothing about passing bytes on. -/
theorem PassedOn.release {α : Type} {s : Splitter τ} {bytes : Bytes}
    {answer : Except Failure Nat → α} {reply : Reply (Splitter τ) α}
    (h : PassedOn s bytes answer reply) (died : Bool) :
    PassedOn s bytes answer (reply.within fun after => after.releaseWrite died) where
  calls := h.calls
  result := h.result
  transport := h.transport
  words := (words_releaseWrite _ died).trans h.words
  pauses := h.pauses
  begun := h.begun

/-- **Every send but the first of bytes that can be cut up passes them on.** -/
theorem passedOn_send [LawfulTransport τ] {s : Splitter τ} {bytes : Bytes}
    (h : ¬ (s.started = false ∧ Cuttable bytes)) :
    PassedOn s bytes (·.mapError (⟨0, ·⟩)) (s.send bytes) := by
  rw [send]
  refine (PassedOn.release ?_ _).after [.beganWrite bytes.length (!s.started)] rfl
  cases hs : s.started with
  | true => exact passedOn_offerOnce s bytes
  | false =>
      have hz := opening_eq_none_iff.mpr fun hc => h ⟨hs, hc⟩
      have hfirst : sendFirst { s with started := true } bytes =
          ({ s with started := true }.offerOnce bytes).after ((opening bytes).2.map .note) := by
        simp only [sendFirst, hz]
      have hoffer := (passedOn_offerOnce { s with started := true } bytes).after
        (opening bytes).2 (begun_opening bytes)
      rw [if_neg Bool.false_ne_true, hfirst]
      exact ⟨hoffer.calls, hoffer.result, hoffer.transport, hoffer.words, hoffer.pauses,
        hoffer.begun⟩

theorem started_offerOnce (s : Splitter τ) (bytes : Bytes) :
    (s.offerOnce bytes).state.started = s.started := by
  rw [offerOnce]
  split <;> rfl

theorem started_sendZones (s : Splitter τ) (zones : Zones) :
    (s.sendZones zones).state.started = s.started := by
  rw [sendZones]
  split <;> rfl

/-- **From a send on the splitter counts as started**, however the send ends. -/
theorem started_send (s : Splitter τ) (bytes : Bytes) : (s.send bytes).state.started = true := by
  rw [send]
  cases hs : s.started with
  | true => exact (started_offerOnce s bytes).trans hs
  | false =>
      change (sendFirst { s with started := true } bytes).state.started = true
      rw [sendFirst]
      split
      next zones notes _ =>
        cases zones with
        | some zones => exact started_sendZones _ zones
        | none => exact started_offerOnce _ bytes

end Splitter

end SplitHello
