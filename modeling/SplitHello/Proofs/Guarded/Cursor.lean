import SplitHello.Cursor
import SplitHello.Proofs.Guarded.Operations

/-!
# Proofs/Guarded/Cursor — reading field by field with guarded operations

A guarded reader holds all of the bytes and the position at which it stands.  What is left of them
is a difference, and what is taken is a slice; `StandsAt` says that the position is in the bytes,
and then both are there.

* `StandsAt.remaining_eq` — what is left can be counted;
* `keeps_take`, `keeps_array` — a read that has enough bytes left for it slices inside them;
* `keeps_bind` — a row of reads keeps up if each of them does.
-/

namespace SplitHello.Guarded

/-- Bytes, and a position among them. -/
structure Reader where
  /-- All of the bytes. -/
  data : Bytes
  /-- How many of them have been read. -/
  position : Nat

namespace Reader

/-- A reader at the start of `data`. -/
def start (data : Bytes) : Reader := ⟨data, 0⟩

/-- How many bytes are left. -/
def remaining (r : Reader) : Step ParseError Nat := use (minus r.data.length r.position)

/-- Whether no byte is left. -/
def isEmpty (r : Reader) : Step ParseError Bool := return (← r.remaining) == 0

/-- The next `n` bytes. -/
def take (r : Reader) (n : Nat) (field : String) : Step ParseError (Bytes × Reader) := do
  let remaining ← r.remaining
  if remaining < n then throw (.truncated field)
  let taken ← use (slice r.data r.position (r.position + n))
  return (taken, { r with position := r.position + n })

/-- The next `n` bytes as a run of that many. -/
def array (r : Reader) (n : Nat) (field : String) :
    Step ParseError ({ bytes : Bytes // bytes.length = n } × Reader) := do
  let (taken, r) ← r.take n field
  let bytes ← use (exactly n taken)
  return (bytes, r)

/-- The next `width` bytes as a big-endian number. -/
def number (r : Reader) (width : Nat) (field : String) : Step ParseError (Nat × Reader) :=
  (fun (taken, r) => (Bytes.toNat taken.val, r)) <$> r.array width field

/-- The next byte. -/
def u8 (r : Reader) (field : String) : Step ParseError (UInt8 × Reader) :=
  (fun (n, r) => (UInt8.ofNat n, r)) <$> r.number 1 field

/-- The next two bytes as a number. -/
def u16 (r : Reader) (field : String) : Step ParseError (UInt16 × Reader) :=
  (fun (n, r) => (UInt16.ofNat n, r)) <$> r.number 2 field

/-- The next three bytes as a number. -/
def u24 (r : Reader) (field : String) : Step ParseError (Nat × Reader) := r.number 3 field

/-- A reader stands in its bytes, where a cursor is. -/
def StandsAt (r : Reader) (c : Cursor) : Prop :=
  r.position ≤ r.data.length ∧ c = ⟨r.position, r.data.drop r.position⟩

/-- What is read is the same, and the reader stands where the cursor is. -/
def Reads {α : Type} (x : α × Reader) (y : α × Cursor) : Prop := x.1 = y.1 ∧ x.2.StandsAt y.2

variable {r : Reader} {c : Cursor} {α β β' : Type}

theorem standsAt_start (data : Bytes) : (start data).StandsAt (.start data) := ⟨Nat.zero_le _, rfl⟩

/-- **What is left can be counted.** -/
theorem StandsAt.remaining_eq (h : r.StandsAt c) : r.remaining = pure c.remaining := by
  rw [remaining, minus_eq_some h.1, h.2, Cursor.remaining, List.length_drop]
  rfl

theorem StandsAt.isEmpty_eq (h : r.StandsAt c) : r.isEmpty = pure c.isEmpty := by
  have hempty : (c.remaining == 0) = c.isEmpty := by
    rw [Cursor.isEmpty, Cursor.remaining]
    cases c.rest <;> rfl
  rw [isEmpty, h.remaining_eq, ← hempty]
  rfl

/-- **A read slices inside the bytes**, or reports that too few are left. -/
theorem keeps_take (h : r.StandsAt c) (n : Nat) (field : String) :
    Keeps Reads (r.take n field) (c.take n field) := by
  rw [take, h.remaining_eq, pure_bind]
  obtain ⟨hposition, rfl⟩ := h
  by_cases hshort : r.data.length - r.position < n
  · have herror : Cursor.take ⟨r.position, r.data.drop r.position⟩ n field =
        .error (.truncated field) :=
      Cursor.take_eq_error_iff.mpr ⟨by rwa [Cursor.remaining, List.length_drop], rfl⟩
    rw [herror, Cursor.remaining, List.length_drop, if_pos hshort]
    exact .error _
  · have hfits : r.position + n ≤ r.data.length := by omega
    have hok : Cursor.take ⟨r.position, r.data.drop r.position⟩ n field =
        .ok ((r.data.drop r.position).take n, ⟨r.position + n, r.data.drop (r.position + n)⟩) := by
      refine Cursor.take_eq_ok_iff.mpr ⟨?_, ?_, rfl⟩
      · rw [List.length_take, List.length_drop]
        omega
      · rw [← List.drop_drop, List.take_append_drop]
    rw [hok, Cursor.remaining, List.length_drop, if_neg hshort]
    exact .use (slice_add hfits) (.ok ⟨rfl, hfits, rfl⟩)

/-- So does a read of a run, which has the length that was asked for. -/
theorem keeps_array (h : r.StandsAt c) (n : Nat) (field : String) :
    Keeps (fun x y => x.1.val = y.1 ∧ x.2.StandsAt y.2) (r.array n field) (c.take n field) := by
  rw [← bind_pure (c.take n field)]
  refine ((keeps_take h n field).and fun _ htake => (Cursor.take_eq_ok_iff.mp htake).1).bind ?_
  rintro ⟨taken, r⟩ ⟨_, c⟩ ⟨⟨rfl, hstands⟩, hlength⟩
  exact .use (exactly_eq_some hlength) (.ok ⟨rfl, hstands⟩)

theorem keeps_number (h : r.StandsAt c) (width : Nat) (field : String) :
    Keeps Reads (r.number width field) (c.number width field) :=
  (keeps_array h width field).map fun _ _ ⟨hbytes, hstands⟩ =>
    ⟨congrArg Bytes.toNat hbytes, hstands⟩

theorem keeps_u8 (h : r.StandsAt c) (field : String) : Keeps Reads (r.u8 field) (c.u8 field) :=
  (keeps_number h 1 field).map fun _ _ ⟨hn, hstands⟩ => ⟨congrArg UInt8.ofNat hn, hstands⟩

theorem keeps_u16 (h : r.StandsAt c) (field : String) : Keeps Reads (r.u16 field) (c.u16 field) :=
  (keeps_number h 2 field).map fun _ _ ⟨hn, hstands⟩ => ⟨congrArg UInt16.ofNat hn, hstands⟩

/-- **A read and what follows it keep up.** -/
theorem keeps_bind {read : Step ParseError (α × Reader)}
    {read' : Except ParseError (α × Cursor)} {rel : β → β' → Prop}
    {next : α × Reader → Step ParseError β} {next' : α × Cursor → Except ParseError β'}
    (h : Keeps Reads read read')
    (hnext : ∀ a r c, r.StandsAt c → Keeps rel (next (a, r)) (next' (a, c))) :
    Keeps rel (read >>= next) (read' >>= next') := by
  refine h.bind ?_
  rintro ⟨a, r⟩ ⟨_, c⟩ ⟨rfl, hstands⟩
  exact hnext a r c hstands

end Reader

end SplitHello.Guarded
