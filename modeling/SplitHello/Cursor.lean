import SplitHello.Hello.ParseError

/-!
# Cursor — reading a message field by field

A cursor stands at a position of a byte string.  Every read says how many bytes it takes and which
field they are; it either takes exactly that many or fails with the field's name, and a failed read
leaves nothing to undo, because the cursor before it is still there.

* `take_eq_ok_iff` — a read succeeds exactly when enough bytes remain, and what it takes followed
  by what remains after it is what remained before it.
-/

namespace SplitHello

/-- A position in a byte string and the bytes from there on. -/
structure Cursor where
  /-- How many bytes have been read. -/
  position : Nat
  /-- The bytes not yet read. -/
  rest : Bytes
  deriving DecidableEq

namespace Cursor

/-- A cursor at the start of `data`. -/
def start (data : Bytes) : Cursor := ⟨0, data⟩

/-- How many bytes are left. -/
def remaining (c : Cursor) : Nat := c.rest.length

/-- Whether no byte is left. -/
def isEmpty (c : Cursor) : Bool := c.rest.isEmpty

/-- The next `n` bytes. -/
def take (c : Cursor) (n : Nat) (field : String) : Except ParseError (Bytes × Cursor) :=
  let taken := c.rest.take n
  if taken.length < n then .error (.truncated field)
  else .ok (taken, ⟨c.position + n, c.rest.drop n⟩)

/-- The next `width` bytes as a big-endian number. -/
def number (c : Cursor) (width : Nat) (field : String) : Except ParseError (Nat × Cursor) :=
  (c.take width field).map fun (taken, c) => (taken.toNat, c)

/-- The next byte. -/
def u8 (c : Cursor) (field : String) : Except ParseError (UInt8 × Cursor) :=
  (c.number 1 field).map fun (n, c) => (UInt8.ofNat n, c)

/-- The next two bytes as a number. -/
def u16 (c : Cursor) (field : String) : Except ParseError (UInt16 × Cursor) :=
  (c.number 2 field).map fun (n, c) => (UInt16.ofNat n, c)

/-- The next three bytes as a number. -/
def u24 (c : Cursor) (field : String) : Except ParseError (Nat × Cursor) := c.number 3 field

/-- **A read succeeds exactly when enough bytes remain**, and takes them in order. -/
theorem take_eq_ok_iff {c c' : Cursor} {n : Nat} {field : String} {taken : Bytes} :
    c.take n field = .ok (taken, c') ↔
      taken.length = n ∧ taken ++ c'.rest = c.rest ∧ c'.position = c.position + n := by
  unfold take
  dsimp only
  constructor
  · intro h
    split at h
    · cases h
    · rename_i hn
      obtain ⟨rfl, rfl⟩ := Prod.mk.inj (Except.ok.inj h)
      exact ⟨by rw [List.length_take] at *; omega, List.take_append_drop n c.rest, rfl⟩
  · rintro ⟨rfl, hrest, hpos⟩
    have hlen : ¬ (c.rest.take taken.length).length < taken.length := by
      rw [← hrest, List.take_left]; omega
    rw [if_neg hlen, ← hrest, List.take_left, List.drop_left, ← hpos]

/-- A read fails exactly when too few bytes remain, and names its field. -/
theorem take_eq_error_iff {c : Cursor} {n : Nat} {field : String} {e : ParseError} :
    c.take n field = .error e ↔ c.remaining < n ∧ e = .truncated field := by
  unfold take remaining
  dsimp only
  split <;> rename_i h <;> rw [List.length_take] at h
  · exact ⟨fun he => ⟨by omega, (Except.error.inj he).symm⟩, fun he => by rw [he.2]⟩
  · exact ⟨fun he => by simp at he, fun he => by omega⟩

end Cursor

end SplitHello
