/-!
# Lock — a lock that outlives the calls that die in it

A lock guards a value.  A call that does not return while it holds the lock leaves the lock
poisoned for good, and whoever takes it next is told so, along with the value.

* `recover_eq` — a poisoned lock is as good as any other to who takes the value all the same.
-/

namespace SplitHello

/-- A lock and what it guards. -/
structure Lock (α : Type) where
  /-- What is guarded. -/
  value : α
  /-- Whether a call died while it held the lock. -/
  poisoned : Bool

namespace Lock

variable {α : Type}

/-- A lock that no call has held yet. -/
def around (value : α) : Lock α := ⟨value, false⟩

/-- Take the lock.  That it is poisoned is an error, which has the value all the same. -/
def take (lock : Lock α) : Except α α :=
  if lock.poisoned then .error lock.value else .ok lock.value

/-- Take the lock, poisoned or not. -/
def recover (lock : Lock α) : α :=
  match lock.take with
  | .ok value => value
  | .error value => value

/-- Give the lock back at the end of a call that may have died. -/
def release (lock : Lock α) (died : Bool) : Lock α :=
  { lock with poisoned := lock.poisoned || died }

/-- **Taking a poisoned lock all the same finds what is guarded.** -/
@[simp] theorem recover_eq (lock : Lock α) : lock.recover = lock.value := by
  unfold recover take
  split
  · next h => split at h <;> cases h; rfl
  · next h => split at h <;> cases h; rfl

end Lock

end SplitHello
