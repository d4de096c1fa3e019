import SplitHello.Proofs.Transport.Lawful

/-!
# Proofs/Transport/Delivery — what a delivery puts on the wire

Delivering bytes is a row of write calls.  `Delivery` says which rows there are, with no transport
in sight: every call offers what is not yet accepted, an interrupted one changes nothing, and the
row ends once all is accepted, or with the first call that fails or accepts nothing.

* `exists_each_deliver` — delivering is a run of writes;
* `delivery_deliver` — over a lawful transport, it is such a row;
* `Delivery.accepted_eq` — what was accepted is the front of the bytes, as long as the count says;
* `Delivery.stops_short` — one that fails has not had all accepted;
* `Delivery.offers_suffix` — only ends of the bytes are offered;
* `Delivery.stops_last` — nothing is called after the call that ends the row.
-/

namespace SplitHello

/-- **Delivering is a run of writes**, of one at least if there is anything to deliver. -/
theorem Transport.exists_each_deliver {τ : Type} [Transport τ] (refusal : IoError) (t : τ)
    (bytes : Bytes) :
    ∃ pieces : List Bytes, pieces.isEmpty = bytes.isEmpty ∧
      (deliver refusal t bytes).state = (Reply.each write t pieces).state ∧
      (deliver refusal t bytes).journal = (Reply.each write t pieces).journal := by
  have hnil : ∀ {bytes : Bytes}, bytes ≠ [] → bytes.isEmpty = false := fun hne =>
    Bool.eq_false_iff.mpr fun h => hne (List.isEmpty_iff.mp h)
  -- a call that ends the delivery is a run of one write
  have hlast : ∀ {t : τ} {bytes : Bytes}, (write t bytes).journal =
      (Reply.each write t [bytes]).journal := (List.append_nil _).symm
  fun_induction deliver refusal t bytes with
  | case1 t => exact ⟨[], rfl, rfl, rfl⟩
  | case2 t bytes hne reply failure hr hi _ ih =>
      obtain ⟨pieces, -, hstate, hjournal⟩ := ih
      refine ⟨bytes :: pieces, (hnil hne).symm, hstate, ?_⟩
      rw [Reply.journal_each_cons, ← hjournal]
      rfl
  | case3 t bytes hne => exact ⟨[bytes], (hnil hne).symm, rfl, hlast⟩
  | case4 t bytes hne => exact ⟨[bytes], (hnil hne).symm, rfl, hlast⟩
  | case5 t bytes hne reply n hr hn _ ih =>
      obtain ⟨pieces, -, hstate, hjournal⟩ := ih
      refine ⟨bytes :: pieces, (hnil hne).symm, hstate, ?_⟩
      rw [Reply.journal_each_cons, ← hjournal]
      rfl

/-- Whether an event is a write that nothing can follow: it accepts nothing, or it fails other
than by an interruption. -/
def Event.stops : Event → Bool
  | .write _ (.ok n) => n == 0
  | .write _ (.error failure) => !failure.isInterrupted
  | _ => false

/-- After a write that nothing can follow, nothing is called. -/
def Journal.StopsAtOnce (journal : Journal) : Prop :=
  journal.Pairwise fun e later => e.stops = true → later.isCall = false

/-- The rows of calls that deliver bytes, with the number of bytes accepted and what went wrong. -/
inductive Delivery (refusal : IoError) : Bytes → Journal → Nat × Option Failure → Prop
  /-- Nothing is left to deliver. -/
  | done : Delivery refusal [] [] (0, none)
  /-- A call was interrupted, and the delivery goes on as if it had not been made. -/
  | interrupted {bytes : Bytes} {failure : Failure} {journal : Journal}
      {outcome : Nat × Option Failure} (hne : bytes ≠ []) (hi : failure.isInterrupted = true)
      (rest : Delivery refusal bytes journal outcome) :
      Delivery refusal bytes (.write bytes (.error failure) :: journal) outcome
  /-- A call failed. -/
  | failed {bytes : Bytes} {failure : Failure} (hne : bytes ≠ [])
      (hi : failure.isInterrupted = false) :
      Delivery refusal bytes [.write bytes (.error failure)] (0, some failure)
  /-- A call accepted nothing. -/
  | refused {bytes : Bytes} (hne : bytes ≠ []) :
      Delivery refusal bytes [.write bytes (.ok 0)] (0, some (.io refusal))
  /-- A call accepted the first `n` bytes. -/
  | accepted {bytes : Bytes} {n : Nat} {journal : Journal} {outcome : Nat × Option Failure}
      (hpos : 0 < n) (hle : n ≤ bytes.length)
      (rest : Delivery refusal (bytes.drop n) journal outcome) :
      Delivery refusal bytes (.write bytes (.ok n) :: journal) (n + outcome.1, outcome.2)

/-- **Over a lawful transport, delivering is a row of such calls.** -/
theorem delivery_deliver {τ : Type} [Transport τ] [LawfulTransport τ] (refusal : IoError) (t : τ)
    (bytes : Bytes) :
    Delivery refusal bytes (Transport.deliver refusal t bytes).journal
      (Transport.deliver refusal t bytes).result := by
  fun_induction Transport.deliver refusal t bytes with
  | case1 t => exact .done
  | case2 t bytes hne reply failure hr hi _ ih =>
      rw [Reply.journal_after, LawfulTransport.journal_write, hr]
      exact .interrupted hne hi ih
  | case3 t bytes hne reply failure hr hi =>
      dsimp only
      rw [LawfulTransport.journal_write, hr]
      exact .failed hne (Bool.eq_false_iff.mpr hi)
  | case4 t bytes hne reply hr =>
      dsimp only
      rw [LawfulTransport.journal_write, hr]
      exact .refused hne
  | case5 t bytes hne reply n hr hn _ ih =>
      rw [Reply.journal_after, Reply.journal_map, LawfulTransport.journal_write, hr]
      exact .accepted (Nat.pos_of_ne_zero hn) (LawfulTransport.accepted_le hr) ih

namespace Delivery

variable {refusal : IoError} {bytes : Bytes} {journal : Journal} {outcome : Nat × Option Failure}

/-- No more is accepted than there is. -/
theorem count_le (h : Delivery refusal bytes journal outcome) : outcome.1 ≤ bytes.length := by
  induction h with
  | done => exact Nat.le_refl _
  | interrupted _ _ _ ih => exact ih
  | failed => exact Nat.zero_le _
  | refused => exact Nat.zero_le _
  | accepted _ hle _ ih =>
      rw [List.length_drop] at ih
      dsimp only
      omega

/-- If nothing went wrong, all is accepted. -/
theorem count_eq (h : Delivery refusal bytes journal outcome) (hnone : outcome.2 = none) :
    outcome.1 = bytes.length := by
  induction h with
  | done => rfl
  | interrupted _ _ _ ih => exact ih hnone
  | failed => cases hnone
  | refused => cases hnone
  | accepted _ hle _ ih =>
      have hrest := ih hnone
      rw [List.length_drop] at hrest
      dsimp only
      omega

/-- **A delivery that fails stops short**, and not at an interruption. -/
theorem stops_short (h : Delivery refusal bytes journal outcome)
    (hrefusal : (Failure.io refusal).isInterrupted = false) {failure : Failure}
    (hfailed : outcome.2 = some failure) :
    outcome.1 < bytes.length ∧ failure.isInterrupted = false := by
  induction h with
  | done => cases hfailed
  | interrupted _ _ _ ih => exact ih hfailed
  | failed hne hi =>
      obtain rfl := Option.some.inj hfailed
      exact ⟨List.length_pos_iff.mpr hne, hi⟩
  | refused hne =>
      obtain rfl := Option.some.inj hfailed
      exact ⟨List.length_pos_iff.mpr hne, hrefusal⟩
  | accepted _ hle _ ih =>
      obtain ⟨hshort, hi⟩ := ih hfailed
      rw [List.length_drop] at hshort
      refine ⟨?_, hi⟩
      dsimp only
      omega

/-- **What was accepted is the front of the bytes**, as long as the count says. -/
theorem accepted_eq (h : Delivery refusal bytes journal outcome) :
    journal.accepted = bytes.take outcome.1 := by
  induction h with
  | done => rfl
  | interrupted _ _ _ ih => exact ih
  | failed => rfl
  | refused => rfl
  | @accepted bytes n journal outcome _ _ _ ih =>
      calc Journal.accepted (.write bytes (.ok n) :: journal)
          = bytes.take n ++ journal.accepted := rfl
        _ = bytes.take n ++ (bytes.drop n).take outcome.1 := by rw [ih]
        _ = bytes.take (n + outcome.1) := (List.take_add ..).symm

/-- **Only ends of the bytes are offered.** -/
theorem offers_suffix (h : Delivery refusal bytes journal outcome) {offered : Bytes}
    (hmem : offered ∈ journal.offers) : offered <:+ bytes := by
  induction h with
  | done => cases hmem
  | interrupted _ _ _ ih =>
      rcases List.mem_cons.mp hmem with rfl | hmem
      · exact List.suffix_rfl
      · exact ih hmem
  | failed =>
      obtain rfl := List.mem_singleton.mp hmem
      exact List.suffix_rfl
  | refused =>
      obtain rfl := List.mem_singleton.mp hmem
      exact List.suffix_rfl
  | @accepted bytes n _ _ _ _ _ ih =>
      rcases List.mem_cons.mp hmem with rfl | hmem
      · exact List.suffix_rfl
      · exact (ih hmem).trans (List.drop_suffix n bytes)

/-- As long as nothing goes wrong, no call is one that nothing can follow. -/
theorem not_stops (h : Delivery refusal bytes journal outcome) (hnone : outcome.2 = none) :
    ∀ e ∈ journal, e.stops = false := by
  induction h with
  | done => exact fun e he => absurd he List.not_mem_nil
  | interrupted _ hi _ ih =>
      refine List.forall_mem_cons.mpr ⟨?_, ih hnone⟩
      rw [Event.stops, hi, Bool.not_true]
  | failed => cases hnone
  | refused => cases hnone
  | accepted hpos _ _ ih =>
      exact List.forall_mem_cons.mpr ⟨beq_eq_false_iff_ne.mpr (Nat.ne_of_gt hpos), ih hnone⟩

/-- **Nothing is called after the call that ends the row.** -/
theorem stops_last (h : Delivery refusal bytes journal outcome) : journal.StopsAtOnce := by
  induction h with
  | done => exact List.Pairwise.nil
  | interrupted _ hi _ ih =>
      refine List.pairwise_cons.mpr ⟨fun later _ hstops => ?_, ih⟩
      rw [Event.stops, hi] at hstops
      cases hstops
  | failed => exact List.pairwise_singleton _ _
  | refused => exact List.pairwise_singleton _ _
  | accepted hpos _ _ ih =>
      refine List.pairwise_cons.mpr ⟨fun later _ hstops => ?_, ih⟩
      exact absurd (beq_iff_eq.mp hstops) (Nat.ne_of_gt hpos)

end Delivery

end SplitHello
