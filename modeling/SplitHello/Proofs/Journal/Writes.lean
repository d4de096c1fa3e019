import SplitHello.Proofs.Transport.Delivery

/-!
# Proofs/Journal/Writes — what is offered, and when

`EachWrite P` says that each write call of a journal offers what `P` allows, which sees all that
happened before it.  It is read off a journal part by part.  A part is quiet if it offers nothing,
makes no pause and begins no fragment.

* `eachWrite_append_iff` — the writes of two journals, one after the other;
* `Delivery.eachWrite` — a delivery offers what of its bytes is not yet accepted.
-/

namespace SplitHello

namespace Journal

/-- Each write call offers what `P` allows, which sees all that happened before it. -/
def EachWrite (P : Journal → Bytes → Prop) (journal : Journal) : Prop :=
  ∀ (before : Journal) (offered : Bytes) (answer : Except Failure Nat) (later : Journal),
    journal = before ++ .write offered answer :: later → P before offered

variable {P Q : Journal → Bytes → Prop} {first second later journal : Journal}

theorem EachWrite.mono (h : journal.EachWrite P)
    (hmono : ∀ before offered, P before offered → Q before offered) : journal.EachWrite Q :=
  fun before offered answer later hjournal => hmono _ _ (h before offered answer later hjournal)

/-- Where nothing is offered, every offer is allowed. -/
theorem eachWrite_of_offers (h : journal.offers = []) : journal.EachWrite P := by
  rintro before offered answer later rfl
  rw [offers_append] at h
  exact absurd (List.append_eq_nil_iff.mp h).2 (List.cons_ne_nil _ _)

/-- A call offers what it may, and those behind it see that it was made. -/
theorem eachWrite_cons_iff {e : Event} :
    EachWrite P (e :: later) ↔ (∀ offered answer, e = .write offered answer → P [] offered) ∧
      later.EachWrite fun before => P (e :: before) := by
  constructor
  · intro h
    refine ⟨?_, fun before offered answer behind hlater => ?_⟩
    · rintro offered answer rfl
      exact h [] offered answer later rfl
    · exact h (e :: before) offered answer behind (congrArg (e :: ·) hlater)
  · rintro ⟨hfirst, hlater⟩ before offered answer behind h
    obtain _ | ⟨e', before⟩ := before
    · obtain ⟨rfl, -⟩ := List.cons.inj h
      exact hfirst offered answer rfl
    · obtain ⟨rfl, rfl⟩ := List.cons.inj h
      exact hlater before offered answer behind rfl

/-- A write call offers what it may, and those behind it see that it was made. -/
theorem eachWrite_write_iff {offered : Bytes} {answer : Except Failure Nat} :
    EachWrite P (.write offered answer :: later) ↔
      P [] offered ∧ later.EachWrite fun before => P (.write offered answer :: before) := by
  rw [eachWrite_cons_iff]
  refine and_congr_left' ⟨fun h => h offered answer rfl, ?_⟩
  rintro h _ _ ⟨⟩
  exact h

/-- **The writes of one journal are made first, and those of the other see all of it.** -/
theorem eachWrite_append_iff :
    EachWrite P (first ++ second) ↔
      first.EachWrite P ∧ second.EachWrite fun before => P (first ++ before) := by
  induction first generalizing P with
  | nil => exact (and_iff_right (eachWrite_of_offers rfl)).symm
  | cons e first ih =>
      rw [List.cons_append, eachWrite_cons_iff, ih, eachWrite_cons_iff, and_assoc]
      rfl

/-- A journal that offers nothing, makes no pause and begins no fragment. -/
structure Quiet (journal : Journal) : Prop where
  /-- Nothing is offered. -/
  offers : journal.offers = []
  /-- No pause is made. -/
  pauses : journal.pauses = []
  /-- No fragment is begun. -/
  begun : journal.begun = []

theorem quiet_nil : Quiet [] := ⟨rfl, rfl, rfl⟩

theorem Quiet.append (hfirst : first.Quiet) (hsecond : second.Quiet) :
    Quiet (first ++ second) where
  offers := by rw [offers_append, hfirst.offers, hsecond.offers, List.append_nil]
  pauses := by rw [pauses_append, hfirst.pauses, hsecond.pauses, List.append_nil]
  begun := by rw [begun_append, hfirst.begun, hsecond.begun, List.append_nil]

theorem Quiet.accepted (h : journal.Quiet) : journal.accepted = [] := accepted_eq_nil h.offers

end Journal

namespace Delivery

variable {refusal : IoError} {bytes : Bytes} {calls : Journal} {outcome : Nat × Option Failure}

/-- A delivery consists of write calls. -/
theorem exists_write (h : Delivery refusal bytes calls outcome) :
    ∀ e ∈ calls, ∃ offered answer, e = .write offered answer := by
  induction h with
  | done => exact fun e he => absurd he List.not_mem_nil
  | failed | refused => exact List.forall_mem_singleton.mpr ⟨_, _, rfl⟩
  | interrupted _ _ _ ih | accepted _ _ _ ih => exact List.forall_mem_cons.mpr ⟨⟨_, _, rfl⟩, ih⟩

theorem pauses_eq (h : Delivery refusal bytes calls outcome) : calls.pauses = [] := by
  refine List.filterMap_eq_nil_iff.mpr fun e he => ?_
  obtain ⟨offered, answer, rfl⟩ := h.exists_write e he
  rfl

theorem begun_eq (h : Delivery refusal bytes calls outcome) : calls.begun = [] := by
  refine List.filterMap_eq_nil_iff.mpr fun e he => ?_
  obtain ⟨offered, answer, rfl⟩ := h.exists_write e he
  rfl

/-- **A delivery offers what of its bytes is not yet accepted**, as long as there is anything. -/
theorem eachWrite (h : Delivery refusal bytes calls outcome) :
    calls.EachWrite fun before offered =>
      before.begun = [] ∧ offered ≠ [] ∧ before.accepted ++ offered = bytes := by
  induction h with
  | done => exact Journal.eachWrite_of_offers rfl
  | interrupted hne _ _ ih => exact Journal.eachWrite_write_iff.mpr ⟨⟨rfl, hne, rfl⟩, ih⟩
  | failed hne | refused hne =>
      exact Journal.eachWrite_write_iff.mpr ⟨⟨rfl, hne, rfl⟩, Journal.eachWrite_of_offers rfl⟩
  | @accepted bytes n journal outcome hpos hle _ ih =>
      have hne : bytes ≠ [] := List.ne_nil_of_length_pos (Nat.lt_of_lt_of_le hpos hle)
      refine Journal.eachWrite_write_iff.mpr ⟨⟨rfl, hne, rfl⟩, ih.mono ?_⟩
      rintro before offered ⟨hbegun, hoffered, hrest⟩
      refine ⟨hbegun, hoffered, ?_⟩
      calc Journal.accepted (.write bytes (.ok n) :: before) ++ offered
          = bytes.take n ++ (before.accepted ++ offered) := List.append_assoc ..
        _ = bytes := by rw [hrest, List.take_append_drop]

end Delivery

end SplitHello
