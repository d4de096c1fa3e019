import SplitHello.Fragment.Writer
import SplitHello.Proofs.Transport.Delivery

/-!
# Proofs/Fragment/Writing — what writing a zone puts on the wire

A zone goes out as a row of deliveries, one for each of its fragments, with a remark ahead of each
and its pause behind it; the first delivery that fails ends the row.  `Writing` says which journals
there are, again with no transport in sight.

* `writing_writeFragments` — over a lawful transport, writing fragments is such a row;
* `Writing.accepted_eq` — what was accepted is the front of the fragments taken together;
* `Writing.offers_suffix` — only ends of single fragments are offered;
* `Writing.stops_last` — nothing is called after the call that ends the row.
-/

namespace SplitHello

open FragmentWriter

/-- The random words once the fragments of a zone are drawn. -/
def Fragment.wordsAfter (words : Words) (fragments : List Fragment) : Words :=
  fragments.foldl (fun _ x => x.words) words

/-- The journals of writing the fragments of a zone of which `index` are written, with `position`
bytes, with the number of bytes accepted and what went wrong. -/
inductive Writing (zone : String) :
    Nat → Nat → List Fragment → Journal → Nat × Option Failure → Prop
  /-- No fragment is left. -/
  | done {index position : Nat} :
      Writing zone index position [] [.note (.zoneWritten zone index position)] (0, none)
  /-- A fragment could not be delivered. -/
  | failed {index position n : Nat} {x : Fragment} {later : List Fragment} {calls : Journal}
      {failure : Failure} (h : Delivery .acceptedNothing x.bytes calls (n, some failure)) :
      Writing zone index position (x :: later) (begins zone (index + 1) position x :: calls)
        (n, some failure)
  /-- A fragment was delivered. -/
  | next {index position n : Nat} {x : Fragment} {later : List Fragment} {calls journal : Journal}
      {outcome : Nat × Option Failure} (h : Delivery .acceptedNothing x.bytes calls (n, none))
      (rest : Writing zone (index + 1) (position + x.bytes.length) later journal outcome) :
      Writing zone index position (x :: later)
        (begins zone (index + 1) position x :: calls ++ pauseAfter x ++ journal)
        (n + outcome.1, outcome.2)

/-- **Over a lawful transport, writing fragments is such a row**, and the writer counts the bytes
and keeps the words. -/
theorem writing_writeFragments {τ : Type} [Transport τ] [LawfulTransport τ] (zone : String)
    (index position : Nat) (writer : FragmentWriter τ) (fragments : List Fragment) :
    let reply := writer.writeFragments zone index position fragments
    ∃ n, Writing zone index position fragments reply.journal (n, reply.result) ∧
      reply.state.written = writer.written + n ∧ reply.state.delayMs = writer.delayMs ∧
      (reply.result = none → reply.state.words = Fragment.wordsAfter writer.words fragments) := by
  induction fragments generalizing index position writer with
  | nil => exact ⟨0, .done, rfl, rfl, fun _ => rfl⟩
  | cons x later ih =>
      have hd := delivery_deliver .acceptedNothing writer.transport x.bytes
      simp only [writeFragments]
      generalize Transport.deliver .acceptedNothing writer.transport x.bytes = reply at hd
      obtain ⟨⟨n, wrong⟩, after, calls⟩ := reply
      cases wrong with
      | some failure =>
          refine ⟨n, .failed hd, rfl, rfl, fun h => ?_⟩
          cases h
      | none =>
          obtain ⟨m, hw, hwritten, hdelay, hwords⟩ := ih (index + 1) (position + x.bytes.length)
            (writer.advance x ⟨(n, none), after, calls⟩)
          refine ⟨n + m, .next hd hw, ?_, hdelay, hwords⟩
          exact hwritten.trans (Nat.add_assoc ..)

/-- Writing a zone writes its fragments. -/
theorem writing_writeZone {τ : Type} [Transport τ] [LawfulTransport τ] (writer : FragmentWriter τ)
    (zone : String) (bytes : Bytes) (sizes : Interval) :
    let reply := writer.writeZone zone bytes sizes
    let fragments := Fragment.cut sizes writer.delayMs writer.words bytes
    ∃ n, Writing zone 0 0 fragments reply.journal (n, reply.result) ∧
      reply.state.written = writer.written + n ∧ reply.state.delayMs = writer.delayMs ∧
      (reply.result = none → reply.state.words = Fragment.wordsAfter writer.words fragments) :=
  writing_writeFragments zone 0 0 writer _

theorem Journal.stopsAtOnce_append {first second : Journal}
    (hfirst : ∀ e ∈ first, e.stops = false) (hsecond : second.StopsAtOnce) :
    Journal.StopsAtOnce (first ++ second) := by
  refine List.pairwise_append.mpr ⟨?_, hsecond, fun e he _ _ hstops => ?_⟩
  · refine List.pairwise_of_forall_mem_list fun e he _ _ hstops => ?_
    rw [hfirst e he] at hstops
    cases hstops
  · rw [hfirst e he] at hstops
    cases hstops

theorem accepted_pauseAfter (x : Fragment) : (pauseAfter x).accepted = [] := by
  rw [pauseAfter]
  split <;> rfl

theorem offers_pauseAfter (x : Fragment) : (pauseAfter x).offers = [] := by
  rw [pauseAfter]
  split <;> rfl

theorem not_stops_pauseAfter (x : Fragment) : ∀ e ∈ pauseAfter x, e.stops = false := by
  rw [pauseAfter]
  split
  · exact fun e he => absurd he List.not_mem_nil
  · rintro e he
    obtain rfl := List.mem_singleton.mp he
    rfl

namespace Writing

variable {zone : String} {index position : Nat} {fragments : List Fragment} {journal : Journal}
  {outcome : Nat × Option Failure}

/-- No more is accepted than the fragments hold, and all of it if nothing went wrong. -/
theorem count_le (h : Writing zone index position fragments journal outcome) :
    outcome.1 ≤ (fragments.flatMap Fragment.bytes).length := by
  induction h with
  | done => exact Nat.le_refl _
  | failed h =>
      rw [List.flatMap_cons, List.length_append]
      exact Nat.le_trans h.count_le (Nat.le_add_right _ _)
  | next h _ ih =>
      rw [List.flatMap_cons, List.length_append]
      exact Nat.add_le_add h.count_le ih

theorem count_eq (h : Writing zone index position fragments journal outcome)
    (hnone : outcome.2 = none) : outcome.1 = (fragments.flatMap Fragment.bytes).length := by
  induction h with
  | done => rfl
  | failed => cases hnone
  | next h _ ih =>
      rw [List.flatMap_cons, List.length_append, ← ih hnone, ← h.count_eq rfl]

/-- **Writing that fails stops short**, and not at an interruption. -/
theorem stops_short (h : Writing zone index position fragments journal outcome) {failure : Failure}
    (hfailed : outcome.2 = some failure) :
    outcome.1 < (fragments.flatMap Fragment.bytes).length ∧ failure.isInterrupted = false := by
  induction h with
  | done => cases hfailed
  | failed h =>
      obtain ⟨hshort, hi⟩ := h.stops_short rfl hfailed
      rw [List.flatMap_cons, List.length_append]
      exact ⟨Nat.lt_of_lt_of_le hshort (Nat.le_add_right _ _), hi⟩
  | next h _ ih =>
      obtain ⟨hshort, hi⟩ := ih hfailed
      rw [List.flatMap_cons, List.length_append]
      exact ⟨Nat.add_lt_add_of_le_of_lt h.count_le hshort, hi⟩

/-- **What was accepted is the front of the fragments taken together.** -/
theorem accepted_eq (h : Writing zone index position fragments journal outcome) :
    journal.accepted = (fragments.flatMap Fragment.bytes).take outcome.1 := by
  induction h with
  | done => rfl
  | @failed index position n x later calls failure h =>
      calc Journal.accepted (begins zone (index + 1) position x :: calls)
          = calls.accepted := rfl
        _ = x.bytes.take n := h.accepted_eq
        _ = (x.bytes ++ later.flatMap Fragment.bytes).take n :=
            (List.take_append_of_le_length h.count_le).symm
  | @next index position n x later calls journal outcome h _ ih =>
      have hn : n = x.bytes.length := h.count_eq rfl
      calc Journal.accepted (begins zone (index + 1) position x :: calls ++ pauseAfter x ++ journal)
          = calls.accepted ++ (pauseAfter x).accepted ++ journal.accepted := by
            rw [List.cons_append, List.cons_append, ← Journal.accepted_append,
              ← Journal.accepted_append]
            rfl
        _ = x.bytes ++ (later.flatMap Fragment.bytes).take outcome.1 := by
            rw [h.accepted_eq, accepted_pauseAfter, List.append_nil, ih, hn, List.take_length]
        _ = (x.bytes ++ later.flatMap Fragment.bytes).take (n + outcome.1) := by
            rw [hn, List.take_length_add_append]

/-- **Only ends of single fragments are offered.** -/
theorem offers_suffix (h : Writing zone index position fragments journal outcome)
    {offered : Bytes} (hmem : offered ∈ journal.offers) : ∃ x ∈ fragments, offered <:+ x.bytes := by
  induction h with
  | done => cases hmem
  | failed h => exact ⟨_, List.mem_cons_self, h.offers_suffix hmem⟩
  | @next index position n x later calls journal outcome h _ ih =>
      rw [Journal.offers_append, List.cons_append] at hmem
      rcases List.mem_append.mp hmem with hmem | hmem
      · have hcalls : offered ∈ calls.offers := by
          rw [← List.append_nil calls.offers, ← offers_pauseAfter x, ← Journal.offers_append]
          exact hmem
        exact ⟨x, List.mem_cons_self, h.offers_suffix hcalls⟩
      · obtain ⟨y, hy, hsuffix⟩ := ih hmem
        exact ⟨y, List.mem_cons_of_mem _ hy, hsuffix⟩

theorem not_stops (h : Writing zone index position fragments journal outcome)
    (hnone : outcome.2 = none) : ∀ e ∈ journal, e.stops = false := by
  induction h with
  | done => exact List.forall_mem_singleton.mpr rfl
  | failed => cases hnone
  | @next _ _ _ x _ _ _ _ h _ ih =>
      rw [List.append_assoc]
      refine List.forall_mem_append.mpr ⟨List.forall_mem_cons.mpr ⟨rfl, h.not_stops rfl⟩, ?_⟩
      exact List.forall_mem_append.mpr ⟨not_stops_pauseAfter x, ih hnone⟩

/-- **Nothing is called after the call that ends the row.** -/
theorem stops_last (h : Writing zone index position fragments journal outcome) :
    journal.StopsAtOnce := by
  induction h with
  | done => exact List.pairwise_singleton _ _
  | failed h => exact Journal.stopsAtOnce_append (List.forall_mem_singleton.mpr rfl) h.stops_last
  | @next _ _ _ x _ _ _ _ h _ ih =>
      refine Journal.stopsAtOnce_append (List.forall_mem_append.mpr ⟨?_, not_stops_pauseAfter x⟩) ih
      exact List.forall_mem_cons.mpr ⟨rfl, h.not_stops rfl⟩

/-- Only where there is a fragment can writing fail. -/
theorem ne_nil_of_failed (h : Writing zone index position fragments journal outcome)
    (hsome : outcome.2 ≠ none) : fragments ≠ [] := by
  cases h with
  | done => exact absurd rfl hsome
  | failed => exact List.cons_ne_nil _ _
  | next => exact List.cons_ne_nil _ _

/-- Writing a zone of something begins a fragment. -/
theorem begun_ne_nil (h : Writing zone index position fragments journal outcome)
    (hne : fragments ≠ []) : journal.begun ≠ [] := by
  cases h with
  | done => exact absurd rfl hne
  | failed => exact List.cons_ne_nil _ _
  | next => exact List.cons_ne_nil _ _

end Writing

end SplitHello
