import SplitHello.Failure

/-!
# Script — what the outside does, call by call

A script says how each call to the outside ends: it moves at most so many bytes, or it fails.  The
calls after its last entry move at most a fixed number, or as many as they can.  Whatever a source
or a transport may do over finitely many calls, some script does it.
-/

namespace SplitHello

/-- How one call ends. -/
inductive Outcome where
  /-- It moves at most `limit` bytes. -/
  | moves (limit : Nat)
  /-- It fails. -/
  | fails (failure : Failure)
  deriving DecidableEq

/-- How the calls end, one after the other. -/
structure Script where
  /-- The ends of the first calls. -/
  outcomes : List Outcome
  /-- How many bytes each later call moves at most. -/
  limit : Option Nat
  deriving DecidableEq

/-- At most so many of `n`. -/
def atMost (limit : Option Nat) (n : Nat) : Nat :=
  match limit with
  | none => n
  | some k => min k n

theorem atMost_le : ∀ (limit : Option Nat) (n : Nat), atMost limit n ≤ n
  | none, n => Nat.le_refl n
  | some k, n => Nat.min_le_right k n

namespace Script

/-- Every call moves what it can. -/
def free : Script := ⟨[], none⟩

/-- The end of the next call, as a failure or a limit, and what is left of the script. -/
def next : Script → Except Failure (Option Nat) × Script
  | ⟨[], limit⟩ => (.ok limit, ⟨[], limit⟩)
  | ⟨.moves n :: later, limit⟩ => (.ok (some n), ⟨later, limit⟩)
  | ⟨.fails failure :: later, limit⟩ => (.error failure, ⟨later, limit⟩)

/-- How many calls have their own entry. -/
def length (script : Script) : Nat := script.outcomes.length

/-- A call uses up its entry. -/
theorem length_next_le : ∀ script : Script, script.next.2.length ≤ script.length
  | ⟨[], _⟩ => Nat.le_refl _
  | ⟨.moves _ :: later, _⟩ => Nat.le_succ later.length
  | ⟨.fails _ :: later, _⟩ => Nat.le_succ later.length

/-- Only a call with an entry fails. -/
theorem length_next_lt : ∀ {script : Script} {failure : Failure},
    script.next.1 = .error failure → script.next.2.length < script.length
  | ⟨[], _⟩, _, h => by cases h
  | ⟨.moves _ :: _, _⟩, _, h => by cases h
  | ⟨.fails _ :: later, _⟩, _, _ => Nat.lt_succ_self later.length

end Script

end SplitHello
