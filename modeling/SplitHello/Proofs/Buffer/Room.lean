import Mathlib.Algebra.Group.Nat.Defs
import Mathlib.Order.Bounds.Basic
import SplitHello.Buffer

/-!
# Proofs/Buffer/Room — how much room a buffer has

A buffer has no room, or that of its first allocation doubled so many times.  What it holds fits its
room, whatever is done with it.

* `isLeast_grown` — growing lands on the least room that will do;
* `grownWord_eq_some` — it never leaves the numbers of a machine word, and comes to an end;
* `Fits.resize`, `Fits.fillTo`, `Fits.cutAt`, … — what a buffer holds fits its room, and goes on to.
-/

namespace SplitHello.Buffer

variable {buffer : Buffer} {capacity bound n : Nat}

/-! ## Growing -/

/-- The rooms that there are: none, and that of the first allocation doubled so many times. -/
def IsRoom (capacity : Nat) : Prop := capacity = 0 ∨ ∃ k, capacity = baseCapacity * 2 ^ k

theorem isRoom_zero : IsRoom 0 := .inl rfl

theorem isRoom_base : IsRoom baseCapacity := .inr ⟨0, rfl⟩

theorem IsRoom.two_mul (h : IsRoom capacity) : IsRoom (2 * capacity) := by
  obtain rfl | ⟨k, rfl⟩ := h
  · exact isRoom_zero
  · exact .inr ⟨k + 1, by rw [Nat.pow_succ', Nat.mul_left_comm]⟩

/-- Between a room and twice that room there is no other. -/
theorem IsRoom.two_mul_le (h : IsRoom capacity) (hbound : IsRoom bound) (hpos : 0 < capacity)
    (hlt : capacity < bound) : 2 * capacity ≤ bound := by
  obtain rfl | ⟨j, rfl⟩ := h
  · exact absurd hpos (Nat.lt_irrefl 0)
  · obtain rfl | ⟨k, rfl⟩ := hbound
    · exact absurd hlt (Nat.not_lt_zero _)
    · have hjk : j < k := (Nat.pow_lt_pow_iff_right (by decide)).mp (Nat.lt_of_mul_lt_mul_left hlt)
      calc 2 * (baseCapacity * 2 ^ j) = baseCapacity * 2 ^ (j + 1) := by
            rw [Nat.pow_succ', Nat.mul_left_comm]
        _ ≤ baseCapacity * 2 ^ k := Nat.mul_le_mul_left _ (Nat.pow_le_pow_right (by decide) hjk)

/-- No room but none is smaller than the first allocation. -/
theorem IsRoom.base_le (h : IsRoom capacity) (hpos : 0 < capacity) : baseCapacity ≤ capacity := by
  obtain rfl | ⟨k, rfl⟩ := h
  · exact absurd hpos (Nat.lt_irrefl 0)
  · exact Nat.le_mul_of_pos_right _ (Nat.two_pow_pos k)

/-- Doubling lands on the least room that will do. -/
theorem isLeast_doubled (h : IsRoom capacity) (hpos : 0 < capacity) (n : Nat) :
    IsLeast {room | IsRoom room ∧ capacity ≤ room ∧ n ≤ room} (doubled capacity n) := by
  fun_induction doubled capacity n with
  | case1 capacity hdone =>
      have hn : n ≤ capacity := hdone.resolve_left (Nat.ne_of_gt hpos)
      exact ⟨⟨h, Nat.le_refl _, hn⟩, fun room hroom => hroom.2.1⟩
  | case2 capacity hmore ih =>
      obtain ⟨⟨hroom, hle, hn⟩, hleast⟩ := ih h.two_mul (by omega)
      refine ⟨⟨hroom, by omega, hn⟩, ?_⟩
      rintro room ⟨hroom, hle, hn⟩
      exact hleast ⟨hroom, h.two_mul_le hroom hpos (by omega), hn⟩

/-- **Growing lands on the least room that will do.** -/
theorem isLeast_grown (h : IsRoom capacity) (n : Nat) :
    IsLeast {room | IsRoom room ∧ capacity ≤ room ∧ n ≤ room} (grown capacity n) := by
  rw [grown]
  by_cases hn : n ≤ capacity
  · rw [if_pos hn]
    exact ⟨⟨h, Nat.le_refl _, hn⟩, fun room hroom => hroom.2.1⟩
  · rw [if_neg hn]
    by_cases hzero : capacity = 0
    · subst hzero
      obtain ⟨⟨hroom, -, hdone⟩, hleast⟩ := isLeast_doubled isRoom_base (by decide) n
      refine ⟨⟨hroom, Nat.zero_le _, hdone⟩, fun room ⟨hroom, _, hn⟩ => ?_⟩
      exact hleast ⟨hroom, hroom.base_le (by omega), hn⟩
    · rw [if_neg hzero]
      exact isLeast_doubled h (Nat.pos_of_ne_zero hzero) n

theorem isRoom_grown (h : IsRoom capacity) (n : Nat) : IsRoom (grown capacity n) :=
  (isLeast_grown h n).1.1

/-- **A room that will do is not outgrown.** -/
theorem grown_le (h : IsRoom capacity) (hbound : IsRoom bound) (hle : capacity ≤ bound)
    (hn : n ≤ bound) : grown capacity n ≤ bound :=
  (isLeast_grown h n).2 ⟨hbound, hle, hn⟩

/-! ## Growing in machine words -/

/-- A room doubled until `n` bytes fit.  There is no answer if a machine word does not hold it, or
if the doubling would never end. -/
def doubledWord (capacity n : Nat) : Option Nat :=
  if n ≤ capacity then some capacity
  else if capacity = 0 then none
  else if 2 * capacity < 2 ^ 64 then doubledWord (2 * capacity) n
  else none
  termination_by n - capacity

/-- A room grown until `n` bytes fit. -/
def grownWord (capacity n : Nat) : Option Nat :=
  if n ≤ capacity then some capacity
  else doubledWord (if capacity = 0 then baseCapacity else capacity) n

theorem doubledWord_eq_some (hpos : 0 < capacity) (hn : n ≤ 2 ^ 63) :
    doubledWord capacity n = some (doubled capacity n) := by
  fun_induction doubled capacity n with
  | case1 capacity hdone =>
      have hfits : n ≤ capacity := hdone.resolve_left (Nat.ne_of_gt hpos)
      rw [doubledWord, if_pos hfits]
  | case2 capacity hmore ih =>
      obtain ⟨hzero, hlt⟩ := not_or.mp hmore
      have hword : 2 * capacity < 2 ^ 64 := by omega
      rw [doubledWord, if_neg hlt, if_neg hzero, if_pos hword]
      exact ih (Nat.mul_pos Nat.two_pos hpos)

/-- **Growing ends, and no room on the way leaves the numbers of a machine word.** -/
theorem grownWord_eq_some (capacity : Nat) (hn : n ≤ 2 ^ 63) :
    grownWord capacity n = some (grown capacity n) := by
  rw [grownWord, grown]
  split
  · rfl
  · refine doubledWord_eq_some ?_ hn
    split
    · decide
    · omega

/-! ## What is held fits -/

/-- What a buffer holds fits its room. -/
structure Fits (buffer : Buffer) : Prop where
  /-- What is read is in the content. -/
  offset_le : buffer.offset ≤ buffer.bytes.length
  /-- The content and what is still there past it are in the room. -/
  held_le : buffer.bytes.length + buffer.beyond.length ≤ buffer.capacity
  /-- The room is one of those that there are. -/
  isRoom : IsRoom buffer.capacity

theorem fits_empty : empty.Fits := ⟨Nat.le_refl 0, Nat.le_refl 0, isRoom_zero⟩

namespace Fits

theorem length_le (h : buffer.Fits) : buffer.bytes.length ≤ buffer.capacity :=
  Nat.le_of_add_right_le h.held_le

theorem seek (h : buffer.Fits) (offset : Nat) : (buffer.seek offset).Fits :=
  ⟨Nat.min_le_right _ _, h.held_le, h.isRoom⟩

theorem read (h : buffer.Fits) (n : Nat) : (buffer.read n).2.Fits := by
  refine ⟨?_, h.held_le, h.isRoom⟩
  have hle := h.offset_le
  change buffer.offset + (buffer.unread.take n).length ≤ buffer.bytes.length
  rw [unread, List.length_take, List.length_drop]
  omega

end Fits

/-- A resized buffer has the length that was asked for. -/
@[simp] theorem length_bytes_resize (buffer : Buffer) (n : Nat) :
    (buffer.resize n).bytes.length = n := by
  rw [resize]
  dsimp only
  rw [List.length_append, List.length_take, List.length_replicate]
  omega

namespace Fits

theorem resize (h : buffer.Fits) (n : Nat) : (buffer.resize n).Fits := by
  refine ⟨?_, ?_, isRoom_grown h.isRoom n⟩
  · rw [length_bytes_resize]
    exact Nat.min_le_right _ _
  · have hheld := h.held_le
    have hgrown : n ≤ grown buffer.capacity n := le_grown buffer.capacity n
    have hself := self_le_grown buffer.capacity n
    change (buffer.resize n).bytes.length + ((buffer.bytes ++ buffer.beyond).drop n).length ≤
      grown buffer.capacity n
    rw [length_bytes_resize, List.length_drop, List.length_append]
    omega

/-- What comes into room that was grown for it fits. -/
theorem extend (h : buffer.Fits) {got : Bytes}
    (hgot : got.length ≤ grown buffer.capacity n - buffer.bytes.length) :
    (buffer.extend (grown buffer.capacity n) got).Fits := by
  have hself := self_le_grown buffer.capacity n
  have hoffset := h.offset_le
  have hheld := h.held_le
  refine ⟨?_, ?_, isRoom_grown h.isRoom n⟩
  · rw [length_bytes_extend]
    exact Nat.le_add_right_of_le h.offset_le
  · rw [length_bytes_extend, capacity_extend]
    change _ + (buffer.beyond.drop got.length).length ≤ _
    rw [List.length_drop]
    omega

/-- However filling a buffer ends, what it holds fits. -/
theorem fillTo (h : buffer.Fits) (source : Source) (n : Nat) :
    (buffer.fillTo source n).state.1.Fits := by
  rw [Buffer.fillTo]
  split
  · exact h
  · exact h.extend (Source.length_fill_le _ _ _)

/-- What is left of a buffer that is cut fits. -/
theorem cutAt (h : buffer.Fits) (n : Nat) : (buffer.cutAt n).2.Fits := by
  rw [Buffer.cutAt]
  split
  · exact h
  · have hheld := h.held_le
    refine ⟨?_, ?_, h.isRoom⟩
    · change min buffer.offset n ≤ (buffer.bytes.take n).length
      rw [List.length_take]
      have := h.offset_le
      omega
    · change (buffer.bytes.take n).length + (buffer.bytes.drop n ++ buffer.beyond).length ≤
        buffer.capacity
      rw [List.length_take, List.length_append, List.length_drop]
      omega

end Fits

/-- What is cut off fits the room that was made for it. -/
theorem fits_of_cutAt {rest : Buffer} (h : (buffer.cutAt n).1 = some rest) :
    rest.Fits ∧ rest.bytes = buffer.bytes.drop n ∧ rest.offset = 0 ∧
      rest.capacity = grown 0 rest.bytes.length := by
  rw [Buffer.cutAt] at h
  split at h
  · cases h
  · obtain rfl := Option.some.inj h
    refine ⟨⟨Nat.zero_le _, ?_, isRoom_grown isRoom_zero _⟩, rfl, rfl, ?_⟩
    · have := le_grown 0 (buffer.bytes.length - n)
      dsimp only
      rw [List.length_drop]
      exact this
    · dsimp only
      rw [List.length_drop]

end SplitHello.Buffer
