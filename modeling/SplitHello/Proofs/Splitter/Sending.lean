import SplitHello.Proofs.Fragment.Writing
import SplitHello.Splitter

/-!
# Proofs/Splitter/Sending — what sending zones puts on the wire

The zones of a write go out one after the other, each cut up with the random words that the zones
before it have left; the first zone that fails ends it.  `Sending` says which journals there are.

* `sending_writeZones` — over a lawful transport, writing zones gives such a journal;
* `Sending.accepted_eq` — what was accepted is the front of the zones taken together;
* `Sending.offers_suffix` — only ends of the fragments of a zone are offered;
* `Sending.stops_last` — nothing is called after the call that ends it.
-/

namespace SplitHello

open Splitter

/-- The bytes of zones taken together. -/
def zoneBytes (plan : List (String × Bytes × Interval)) : Bytes :=
  plan.flatMap fun zone => zone.2.1

theorem zoneBytes_cons (zone : String) (bytes : Bytes) (sizes : Interval)
    (later : List (String × Bytes × Interval)) :
    zoneBytes ((zone, bytes, sizes) :: later) = bytes ++ zoneBytes later := rfl

/-- The journals of writing zones once `written` bytes were accepted, with the number of bytes
accepted by these writes and what went wrong. -/
inductive Sending (delays : Interval) :
    Words → Nat → List (String × Bytes × Interval) → Journal → Nat × Option Failure → Prop
  /-- No zone is left. -/
  | done {words : Words} {written : Nat} : Sending delays words written [] [] (0, none)
  /-- A zone could not be written. -/
  | failed {words : Words} {written n : Nat} {zone : String} {bytes : Bytes} {sizes : Interval}
      {later : List (String × Bytes × Interval)} {journal : Journal} {failure : Failure}
      (h : Writing zone 0 0 (Fragment.cut sizes delays words bytes) journal (n, some failure)) :
      Sending delays words written ((zone, bytes, sizes) :: later)
        (journal ++ noteFailure (.fragmentFailed zone (written + n)) failure) (n, some failure)
  /-- A zone was written. -/
  | next {words : Words} {written n : Nat} {zone : String} {bytes : Bytes} {sizes : Interval}
      {later : List (String × Bytes × Interval)} {journal more : Journal}
      {outcome : Nat × Option Failure}
      (h : Writing zone 0 0 (Fragment.cut sizes delays words bytes) journal (n, none))
      (rest : Sending delays
        (Fragment.wordsAfter words (Fragment.cut sizes delays words bytes)) (written + n) later
        more outcome) :
      Sending delays words written ((zone, bytes, sizes) :: later) (journal ++ more)
        (n + outcome.1, outcome.2)

/-- **Over a lawful transport, writing zones gives such a journal**, and the writer counts the
bytes. -/
theorem sending_writeZones {τ : Type} [Transport τ] [LawfulTransport τ] :
    ∀ (writer : FragmentWriter τ) (plan : List (String × Bytes × Interval)),
      let reply := writeZones writer plan
      ∃ n, Sending writer.delayMs writer.words writer.written plan reply.journal
          (n, reply.result) ∧ reply.state.written = writer.written + n
  | writer, [] => ⟨0, .done, rfl⟩
  | writer, (zone, bytes, sizes) :: later => by
      obtain ⟨n, hw, hwritten, hdelay, hwords⟩ := writing_writeZone writer zone bytes sizes
      simp only [writeZones]
      generalize writer.writeZone zone bytes sizes = reply at hw hwritten hdelay hwords
      obtain ⟨wrong, after, journal⟩ := reply
      cases wrong with
      | some failure =>
          refine ⟨n, ?_, hwritten⟩
          dsimp only at hwritten ⊢
          rw [hwritten]
          exact .failed hw
      | none =>
          obtain ⟨m, hs, hmore⟩ := sending_writeZones after later
          dsimp only at hwritten hdelay hwords
          rw [hdelay, hwords rfl, hwritten] at hs
          refine ⟨n + m, .next hw hs, ?_⟩
          rw [Reply.state_after, hmore, hwritten, Nat.add_assoc]

theorem accepted_noteFailure (note : IoError → Note) (failure : Failure) :
    (noteFailure note failure).accepted = [] := by
  cases failure <;> rfl

theorem offers_noteFailure (note : IoError → Note) (failure : Failure) :
    (noteFailure note failure).offers = [] := by
  cases failure <;> rfl

theorem not_isCall_noteFailure (note : IoError → Note) (failure : Failure) :
    ∀ e ∈ noteFailure note failure, e.isCall = false := by
  cases failure with
  | io e => exact List.forall_mem_singleton.mpr rfl
  | abort => exact fun e he => absurd he List.not_mem_nil

/-- Remarks behind a row of calls change nothing about what ends it. -/
theorem Journal.stopsAtOnce_append_of_not_isCall {first second : Journal}
    (hfirst : first.StopsAtOnce) (hsecond : ∀ e ∈ second, e.isCall = false) :
    Journal.StopsAtOnce (first ++ second) := by
  refine List.pairwise_append.mpr ⟨hfirst, ?_, fun _ _ e he _ => hsecond e he⟩
  exact List.pairwise_of_forall_mem_list fun _ _ e he _ => hsecond e he

namespace Sending

variable {delays : Interval} {words : Words} {written : Nat}
  {plan : List (String × Bytes × Interval)} {journal : Journal} {outcome : Nat × Option Failure}

/-- No more is accepted than the zones hold. -/
theorem count_le (h : Sending delays words written plan journal outcome) :
    outcome.1 ≤ (zoneBytes plan).length := by
  induction h with
  | done => exact Nat.le_refl _
  | failed h =>
      have hle := h.count_le
      rw [Fragment.flatMap_cut] at hle
      rw [zoneBytes_cons, List.length_append]
      exact Nat.le_trans hle (Nat.le_add_right _ _)
  | next h _ ih =>
      have hle := h.count_le
      rw [Fragment.flatMap_cut] at hle
      rw [zoneBytes_cons, List.length_append]
      exact Nat.add_le_add hle ih

/-- If nothing went wrong, all is accepted. -/
theorem count_eq (h : Sending delays words written plan journal outcome)
    (hnone : outcome.2 = none) : outcome.1 = (zoneBytes plan).length := by
  induction h with
  | done => rfl
  | failed => cases hnone
  | next h _ ih =>
      have heq := h.count_eq rfl
      rw [Fragment.flatMap_cut] at heq
      rw [zoneBytes_cons, List.length_append, ← ih hnone, ← heq]

/-- **Sending that fails stops short**, and not at an interruption. -/
theorem stops_short (h : Sending delays words written plan journal outcome) {failure : Failure}
    (hfailed : outcome.2 = some failure) :
    outcome.1 < (zoneBytes plan).length ∧ failure.isInterrupted = false := by
  induction h with
  | done => cases hfailed
  | failed h =>
      obtain ⟨hshort, hi⟩ := h.stops_short hfailed
      rw [Fragment.flatMap_cut] at hshort
      rw [zoneBytes_cons, List.length_append]
      exact ⟨Nat.lt_of_lt_of_le hshort (Nat.le_add_right _ _), hi⟩
  | next h _ ih =>
      obtain ⟨hshort, hi⟩ := ih hfailed
      have hle := h.count_le
      rw [Fragment.flatMap_cut] at hle
      rw [zoneBytes_cons, List.length_append]
      exact ⟨Nat.add_lt_add_of_le_of_lt hle hshort, hi⟩

/-- **What was accepted is the front of the zones taken together.** -/
theorem accepted_eq (h : Sending delays words written plan journal outcome) :
    journal.accepted = (zoneBytes plan).take outcome.1 := by
  induction h with
  | done => rfl
  | failed h =>
      have hle := h.count_le
      rw [Fragment.flatMap_cut] at hle
      rw [Journal.accepted_append, accepted_noteFailure, List.append_nil, h.accepted_eq,
        Fragment.flatMap_cut, zoneBytes_cons, List.take_append_of_le_length hle]
  | next h _ ih =>
      have heq := h.count_eq rfl
      rw [Fragment.flatMap_cut] at heq
      rw [Journal.accepted_append, h.accepted_eq, Fragment.flatMap_cut, ih, zoneBytes_cons]
      dsimp only at heq ⊢
      rw [heq, List.take_length, List.take_length_add_append]

/-- **Only ends of the fragments of a zone are offered.** -/
theorem offers_suffix (h : Sending delays words written plan journal outcome) {offered : Bytes}
    (hmem : offered ∈ journal.offers) :
    ∃ zone ∈ plan, ∃ words, ∃ x ∈ Fragment.cut zone.2.2 delays words zone.2.1,
      offered <:+ x.bytes := by
  induction h with
  | done => cases hmem
  | failed h =>
      rw [Journal.offers_append, offers_noteFailure, List.append_nil] at hmem
      obtain ⟨x, hx, hsuffix⟩ := h.offers_suffix hmem
      exact ⟨_, List.mem_cons_self, _, x, hx, hsuffix⟩
  | next h _ ih =>
      rw [Journal.offers_append] at hmem
      rcases List.mem_append.mp hmem with hmem | hmem
      · obtain ⟨x, hx, hsuffix⟩ := h.offers_suffix hmem
        exact ⟨_, List.mem_cons_self, _, x, hx, hsuffix⟩
      · obtain ⟨zone, hzone, hrest⟩ := ih hmem
        exact ⟨zone, List.mem_cons_of_mem _ hzone, hrest⟩

/-- **Nothing is called after the call that ends it.** -/
theorem stops_last (h : Sending delays words written plan journal outcome) :
    journal.StopsAtOnce := by
  induction h with
  | done => exact List.Pairwise.nil
  | failed h =>
      exact Journal.stopsAtOnce_append_of_not_isCall h.stops_last (not_isCall_noteFailure _ _)
  | next h _ ih => exact Journal.stopsAtOnce_append (h.not_stops rfl) ih

/-- Sending zones that hold anything begins a fragment. -/
theorem begun_ne_nil (h : Sending delays words written plan journal outcome)
    (hne : zoneBytes plan ≠ []) : journal.begun ≠ [] := by
  induction h with
  | done => exact absurd rfl hne
  | failed h =>
      intro hnil
      rw [Journal.begun_append] at hnil
      have hcut := h.ne_nil_of_failed (Option.some_ne_none _)
      exact h.begun_ne_nil hcut (List.append_eq_nil_iff.mp hnil).1
  | @next words written n zone bytes sizes later journal more outcome h _ ih =>
      intro hnil
      rw [Journal.begun_append] at hnil
      obtain ⟨hfirst, hmore⟩ := List.append_eq_nil_iff.mp hnil
      -- a zone that begins no fragment is empty, so the bytes are in the zones behind it
      have hcut : Fragment.cut sizes delays words bytes = [] :=
        Classical.byContradiction fun hcut => h.begun_ne_nil hcut hfirst
      have hempty : bytes = [] := by
        rw [← Fragment.flatMap_cut sizes delays words bytes, hcut, List.flatMap_nil]
      refine ih (fun hlater => hne ?_) hmore
      rw [zoneBytes_cons, hempty, hlater, List.nil_append]

end Sending

end SplitHello
