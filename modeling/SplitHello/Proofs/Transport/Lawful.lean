import SplitHello.Transport.Scripted
import SplitHello.Transport.Socket

/-!
# Proofs/Transport/Lawful — transports whose journal is what happened

A transport answers a write as it likes: it accepts any part of what it is offered, or it fails in
any way, and what it does may depend on all that came before.  It is **lawful** if the journal of a
write is that one call with its answer, if no more is accepted than was offered, and if nothing but
a write offers bytes.  The scripted transport and the socket are lawful.
-/

namespace SplitHello

open Transport

/-- A transport whose journal is what happened. -/
class LawfulTransport (τ : Type) [Transport τ] : Prop where
  /-- A write is one call, which answers what the write answers. -/
  journal_write : ∀ (t : τ) (bytes : Bytes),
    (write t bytes).journal = [.write bytes (write t bytes).result]
  /-- No more is accepted than was offered. -/
  accepted_le : ∀ {t : τ} {bytes : Bytes} {n : Nat},
    (write t bytes).result = .ok n → n ≤ bytes.length
  /-- Sending buffered bytes on offers none. -/
  offers_flush : ∀ t : τ, (flush t).journal.offers = []
  /-- Asking for bytes offers none. -/
  offers_read : ∀ (t : τ) (room : Nat), (read t room).journal.offers = []
  /-- Shutting down offers no bytes. -/
  offers_close : ∀ t : τ, (close t).journal.offers = []
  /-- Bounding reads offers no bytes. -/
  offers_setReadTimeout : ∀ (t : τ) (ms : Option Nat), (setReadTimeout t ms).journal.offers = []
  /-- Bounding writes offers no bytes. -/
  offers_setWriteTimeout : ∀ (t : τ) (ms : Option Nat), (setWriteTimeout t ms).journal.offers = []

/-- Where nothing is offered, nothing is accepted. -/
theorem Journal.accepted_eq_nil {journal : Journal} (h : journal.offers = []) :
    journal.accepted = [] := by
  refine List.flatMap_eq_nil_iff.mpr fun e he => ?_
  cases e with
  | write offered answer => exact absurd (List.filterMap_eq_nil_iff.mp h _ he) (by simp)
  | _ => rfl

namespace ScriptedTransport

theorem offers_control (t : ScriptedTransport) (failure : Controls → Option Failure)
    {event : Except Failure Unit → Event} (h : ∀ r, Journal.offers [event r] = []) :
    (t.control failure event).journal.offers = [] := by
  rw [control]
  split
  · rfl
  · exact h _

instance : LawfulTransport ScriptedTransport where
  journal_write t bytes := by
    change (t.write bytes).journal = [.write bytes (t.write bytes).result]
    rw [write]
    split <;> rfl
  accepted_le {t bytes n} h := by
    change (t.write bytes).result = .ok n at h
    rw [write] at h
    split at h
    · cases h
    · obtain rfl := Except.ok.inj h
      exact atMost_le _ _
  offers_flush _ := rfl
  offers_read t room := by
    change (t.source.read room).journal.offers = []
    rw [Source.read]
    split <;> rfl
  offers_close t := t.offers_control _ fun _ => rfl
  offers_setReadTimeout t _ := t.offers_control _ fun _ => rfl
  offers_setWriteTimeout t _ := t.offers_control _ fun _ => rfl

end ScriptedTransport

namespace Socket

theorem offers_bound (s : Socket) (ms : Option Nat) (set : Socket)
    {event : Except Failure Unit → Event} (h : ∀ r, Journal.offers [event r] = []) :
    (s.bound ms set event).journal.offers = [] := by
  rw [bound]
  split <;> exact h _

instance : LawfulTransport Socket where
  journal_write s bytes := by
    change (s.write bytes).journal = [.write bytes (s.write bytes).result]
    rw [write]
    split <;> rfl
  accepted_le {s bytes n} h := by
    change (s.write bytes).result = .ok n at h
    rw [write] at h
    split at h
    · cases h
    · obtain rfl := Except.ok.inj h
      exact Nat.le_refl _
  offers_flush _ := rfl
  offers_read s room := by
    change (s.read room).journal.offers = []
    rw [read]
    split <;> rfl
  offers_close _ := rfl
  offers_setReadTimeout s ms := s.offers_bound ms _ fun _ => rfl
  offers_setWriteTimeout s ms := s.offers_bound ms _ fun _ => rfl

end Socket

end SplitHello
