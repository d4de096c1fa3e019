import SplitHello.Source

/-!
# Buffer — a growable buffer with a read offset

A buffer has room for `capacity` bytes, of which the first `bytes` are its content; it grows by
doubling from 1024.  Shrinking keeps the bytes past the content where they are, and growing again
shows them; where nothing was ever written there are zeros.

* `append_fillTo` — what was in the buffer and what came from the source is in the buffer after
  the call, in order, however the call ends;
* `append_cutAt` — cutting a buffer loses nothing.
-/

namespace SplitHello

/-- A growable buffer with a read offset. -/
structure Buffer where
  /-- The content. -/
  bytes : Bytes
  /-- What is still there past the content, up to the last byte ever written. -/
  beyond : Bytes
  /-- For how many bytes there is room. -/
  capacity : Nat
  /-- How many bytes of the content have been read. -/
  offset : Nat
  deriving DecidableEq

namespace Buffer

/-- A buffer without room. -/
def empty : Buffer := ⟨[], [], 0, 0⟩

/-- The content not yet read. -/
def unread (buffer : Buffer) : Bytes := buffer.bytes.drop buffer.offset

/-- The buffer with its read offset set, at most to the end of the content. -/
def seek (buffer : Buffer) (offset : Nat) : Buffer :=
  { buffer with offset := min offset buffer.bytes.length }

/-! ## Room -/

/-- The room of the first allocation. -/
def baseCapacity : Nat := 1024

/-- A room doubled until `n` bytes fit. -/
def doubled (capacity n : Nat) : Nat :=
  if capacity = 0 ∨ n ≤ capacity then capacity else doubled (2 * capacity) n
  termination_by n - capacity

/-- A room grown until `n` bytes fit. -/
def grown (capacity n : Nat) : Nat :=
  if n ≤ capacity then capacity
  else doubled (if capacity = 0 then baseCapacity else capacity) n

theorem le_doubled {capacity : Nat} (n : Nat) (h : 0 < capacity) : n ≤ doubled capacity n := by
  fun_induction doubled capacity n with
  | case1 capacity hc => omega
  | case2 capacity hc ih => exact ih (by omega)

/-- What is asked for fits. -/
theorem le_grown (capacity n : Nat) : n ≤ grown capacity n := by
  unfold grown
  split
  · assumption
  · refine le_doubled n ?_
    split
    · decide
    · omega

theorem self_le_doubled (capacity n : Nat) : capacity ≤ doubled capacity n := by
  fun_induction doubled capacity n with
  | case1 capacity hc => exact Nat.le_refl _
  | case2 capacity hc ih => omega

/-- Growing makes no room smaller. -/
theorem self_le_grown (capacity n : Nat) : capacity ≤ grown capacity n := by
  unfold grown
  split
  · exact Nat.le_refl _
  · split
    · omega
    · exact self_le_doubled capacity n

/-! ## Content -/

/-- The buffer with a content of `n` bytes. -/
def resize (buffer : Buffer) (n : Nat) : Buffer where
  bytes := (buffer.bytes ++ buffer.beyond).take n ++
    List.replicate (n - (buffer.bytes ++ buffer.beyond).length) 0
  beyond := (buffer.bytes ++ buffer.beyond).drop n
  capacity := grown buffer.capacity n
  offset := min buffer.offset n

/-- The buffer with `got` after its content, over what was there. -/
def extend (buffer : Buffer) (capacity : Nat) (got : Bytes) : Buffer :=
  { buffer with bytes := buffer.bytes ++ got, beyond := buffer.beyond.drop got.length, capacity }

@[simp] theorem length_bytes_extend (buffer : Buffer) (capacity : Nat) (got : Bytes) :
    (buffer.extend capacity got).bytes.length = buffer.bytes.length + got.length :=
  List.length_append

@[simp] theorem capacity_extend (buffer : Buffer) (capacity : Nat) (got : Bytes) :
    (buffer.extend capacity got).capacity = capacity := rfl

@[simp] theorem extend_nil (buffer : Buffer) : buffer.extend buffer.capacity [] = buffer := by
  rw [extend, List.append_nil]
  rfl

theorem extend_extend (buffer : Buffer) (capacity : Nat) (first second : Bytes) :
    (buffer.extend capacity first).extend capacity second =
      buffer.extend capacity (first ++ second) := by
  simp only [extend, List.append_assoc, List.drop_drop, List.length_append]

/-- Read from a source until the content has at least `n` bytes.  What comes beyond them is kept,
and so is what came before a failure. -/
def fillTo (buffer : Buffer) (source : Source) (n : Nat) :
    Reply (Buffer × Source) (Option Failure) :=
  if n ≤ buffer.bytes.length then ⟨none, (buffer, source), []⟩
  else
    let room := grown buffer.capacity n
    let reply := source.fill (n - buffer.bytes.length) (room - buffer.bytes.length)
    ⟨reply.result.2, (buffer.extend room reply.result.1, reply.state), reply.journal⟩

/-- The first `n` bytes of the content, and a buffer with the rest if there is any. -/
def cutAt (buffer : Buffer) (n : Nat) : Option Buffer × Buffer :=
  if buffer.bytes.length ≤ n then (none, buffer)
  else
    let rest := buffer.bytes.drop n
    (some ⟨rest, [], grown 0 (buffer.bytes.length - n), 0⟩,
      ⟨buffer.bytes.take n, rest ++ buffer.beyond, buffer.capacity, min buffer.offset n⟩)

/-- The next bytes of the content, at most `n`, and the buffer with them read. -/
def read (buffer : Buffer) (n : Nat) : Bytes × Buffer :=
  let chunk := buffer.unread.take n
  (chunk, { buffer with offset := buffer.offset + chunk.length })

/-- The bytes that a buffer which may be absent holds. -/
def contentOf (buffer : Option Buffer) : Bytes := (buffer.map bytes).getD []

/-! ## Nothing is lost -/

/-- **What was in the buffer and what came from the source is in the buffer**, however the call
ends. -/
theorem append_fillTo (buffer : Buffer) (source : Source) (n : Nat) :
    (buffer.fillTo source n).state.1.bytes ++ (buffer.fillTo source n).state.2.data =
      buffer.bytes ++ source.data := by
  unfold fillTo
  split
  · rfl
  · simp only [extend, List.append_assoc, Source.fill_append]

/-- If nothing went wrong, the content is long enough. -/
theorem le_length_fillTo {buffer : Buffer} {source : Source} {n : Nat}
    (h : (buffer.fillTo source n).result = none) :
    n ≤ (buffer.fillTo source n).state.1.bytes.length := by
  unfold fillTo at h ⊢
  split at h
  · rw [if_pos (by assumption)]
    assumption
  · rename_i hn
    rw [if_neg hn]
    have := Source.le_length_fill _ _ _ h
    simp only [extend, List.length_append]
    omega

/-- **Cutting a buffer loses nothing.** -/
theorem append_cutAt (buffer : Buffer) (n : Nat) :
    (buffer.cutAt n).2.bytes ++ contentOf (buffer.cutAt n).1 = buffer.bytes := by
  unfold cutAt contentOf
  split
  · exact List.append_nil _
  · exact List.take_append_drop n buffer.bytes

/-- What is cut off has the bytes past the first `n`. -/
theorem contentOf_cutAt (buffer : Buffer) (n : Nat) :
    contentOf (buffer.cutAt n).1 = buffer.bytes.drop n := by
  unfold cutAt contentOf
  split
  · exact (List.drop_eq_nil_of_le (by assumption)).symm
  · rfl

end Buffer

end SplitHello
