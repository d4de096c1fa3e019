import SplitHello.Journal

/-!
# Transport — where bytes go and come from

A `Transport` is a connection: bytes are written to it and read from it, and it may offer controls.
A write may accept only the front of what it is offered, and it may be interrupted; `patience`
bounds how often that can still happen, which is why repeating an interrupted write ends.

`deliver` writes until all is accepted, repeating interrupted writes:

* `not_isInterrupted_deliver` — it never ends in an interruption;
* `patience_deliver_le` — it never makes a transport more patient.
-/

namespace SplitHello

/-- A connection. -/
class Transport (τ : Type) where
  /-- Offer bytes; the answer says how many were accepted, from the front. -/
  write : τ → Bytes → Reply τ (Except Failure Nat)
  /-- Send buffered bytes on. -/
  flush : τ → Reply τ (Except Failure Unit)
  /-- Ask for up to so many bytes. -/
  read : τ → Nat → Reply τ (Except Failure Bytes)
  /-- Shut down both directions. -/
  close : τ → Reply τ (Except Failure Unit)
  /-- Bound the milliseconds that a read may take, or do not. -/
  setReadTimeout : τ → Option Nat → Reply τ (Except Failure Unit)
  /-- Bound the milliseconds that a write may take, or do not. -/
  setWriteTimeout : τ → Option Nat → Reply τ (Except Failure Unit)
  /-- How many more writes can be interrupted. -/
  patience : τ → Nat
  /-- A write makes no transport more patient. -/
  patience_write_le : ∀ (t : τ) (bytes : Bytes), patience (write t bytes).state ≤ patience t
  /-- An interrupted write makes it less patient. -/
  patience_write_lt : ∀ {t : τ} {bytes : Bytes} {failure : Failure},
    (write t bytes).result = .error failure → failure.isInterrupted = true →
      patience (write t bytes).state < patience t

namespace Transport

variable {τ : Type}

/-- The answer of a transport that does not offer a control. -/
def refuse (t : τ) : Reply τ (Except Failure Unit) := ⟨.error (.io .unsupported), t, []⟩

variable [Transport τ]

/-- Write `bytes` until all of them are accepted, repeating interrupted writes.  The answer is how
many were accepted and what went wrong; a write that accepts nothing ends it with `refused`. -/
def deliver (refused : IoError) (t : τ) (bytes : Bytes) : Reply τ (Nat × Option Failure) :=
  if bytes = [] then ⟨(0, none), t, []⟩
  else
    let reply := write t bytes
    match h : reply.result with
    | .error failure =>
        if hi : failure.isInterrupted then
          have := patience_write_lt h hi
          (deliver refused reply.state bytes).after reply.journal
        else ⟨(0, some failure), reply.state, reply.journal⟩
    | .ok n =>
        if n = 0 then ⟨(0, some (.io refused)), reply.state, reply.journal⟩
        else
          have := patience_write_le t bytes
          ((deliver refused reply.state (bytes.drop n)).map fun done =>
            (n + done.1, done.2)).after reply.journal
  termination_by bytes.length + patience t
  decreasing_by
    · omega
    · have := List.length_pos_iff.mpr (by assumption : bytes ≠ [])
      simp only [List.length_drop]
      omega

/-- **Delivering never ends in an interruption.** -/
theorem not_isInterrupted_deliver {refused : IoError} {t : τ} {bytes : Bytes} {failure : Failure}
    (hrefused : refused.kind ≠ .interrupted)
    (h : (deliver refused t bytes).result.2 = some failure) : failure.isInterrupted = false := by
  fun_induction deliver refused t bytes with
  | case1 => cases h
  | case2 t bytes hb reply f hr hi _ ih => exact ih h
  | case3 t bytes hb reply f hr hi =>
      obtain rfl := Option.some.inj h
      exact Bool.eq_false_iff.mpr hi
  | case4 t bytes hb reply hr =>
      obtain rfl := Option.some.inj h
      exact beq_eq_false_iff_ne.mpr hrefused
  | case5 t bytes hb reply n hr hn _ ih => exact ih h

/-- **Delivering never makes a transport more patient.** -/
theorem patience_deliver_le (refused : IoError) (t : τ) (bytes : Bytes) :
    patience (deliver refused t bytes).state ≤ patience t := by
  fun_induction deliver refused t bytes with
  | case1 => exact Nat.le_refl _
  | case2 t bytes hb reply f hr hi _ ih => exact Nat.le_trans ih (patience_write_le t bytes)
  | case3 t bytes hb reply f hr hi => exact patience_write_le t bytes
  | case4 t bytes hb reply hr => exact patience_write_le t bytes
  | case5 t bytes hb reply n hr hn _ ih => exact Nat.le_trans ih (patience_write_le t bytes)

end Transport

end SplitHello
