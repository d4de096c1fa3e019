import SplitHello.Proofs.Transport.Delivery

/-!
# Proofs/Transport/Accepting — transports that accept everything

A transport accepts everything if each call of every run of writes on it accepts all that it is
offered.  A run of writes leaves it so.

* `AcceptsAll.state_write` — after a write the transport still accepts everything;
* `deliver_of_acceptsAll` — delivering to it takes a single call.
-/

namespace SplitHello

namespace Transport

variable {τ : Type} [Transport τ] {t : τ}

/-- Whatever run of writes is made, each of them accepts all that it is offered. -/
def AcceptsAll (t : τ) : Prop :=
  ∀ pieces : List Bytes, (Reply.each write t pieces).result = pieces.map fun piece =>
    .ok piece.length

theorem AcceptsAll.result_write (h : AcceptsAll t) (bytes : Bytes) :
    (write t bytes).result = .ok bytes.length :=
  (List.cons.inj (h [bytes])).1

/-- **After a write the transport still accepts everything.** -/
theorem AcceptsAll.state_write (h : AcceptsAll t) (bytes : Bytes) :
    AcceptsAll (write t bytes).state :=
  fun pieces => (List.cons.inj (h (bytes :: pieces))).2

/-- Delivering nothing takes no call. -/
theorem deliver_nil (refusal : IoError) (t : τ) :
    deliver refusal t [] = ⟨(0, none), t, []⟩ := by
  rw [deliver, if_pos rfl]

/-- **Delivering to a transport that accepts everything takes a single call.** -/
theorem deliver_of_acceptsAll [LawfulTransport τ] (h : AcceptsAll t) (refusal : IoError)
    {bytes : Bytes} (hne : bytes ≠ []) :
    deliver refusal t bytes =
      ⟨(bytes.length, none), (write t bytes).state, [.write bytes (.ok bytes.length)]⟩ := by
  have hresult := h.result_write bytes
  have hcall : (write t bytes).journal = [.write bytes (.ok bytes.length)] := by
    rw [LawfulTransport.journal_write, hresult]
  have hlength : bytes.length ≠ 0 := fun hzero => hne (List.eq_nil_of_length_eq_zero hzero)
  rw [deliver, if_neg hne]
  dsimp only
  split
  · next hfailed =>
    rw [hresult] at hfailed
    cases hfailed
  · next n hok =>
    obtain rfl := Except.ok.inj (hresult.symm.trans hok)
    rw [if_neg hlength, List.drop_length, deliver_nil, hcall]
    rfl

end Transport

namespace ScriptedTransport

/-- A scripted transport whose writes all move what they can accepts everything. -/
theorem acceptsAll_of_free {t : ScriptedTransport} (h : t.writes = .free) :
    Transport.AcceptsAll t := by
  have hnext : t.writes.next = (.ok none, .free) := by rw [h]; rfl
  have hwrite : ∀ bytes, Transport.write t bytes =
      ⟨.ok bytes.length, t, [.write bytes (.ok bytes.length)]⟩ := by
    intro bytes
    change t.write bytes = _
    simp only [write, hnext, atMost, ← h]
  intro pieces
  induction pieces with
  | nil => rfl
  | cons piece later ih => rw [Reply.result_each_cons, hwrite, ih, List.map_cons]

/-- A transport that accepts whatever it is offered. -/
def acceptsAny : ScriptedTransport where
  writes := .free
  flushes := .free
  source := .ofBytes []
  controls := none

end ScriptedTransport

end SplitHello
