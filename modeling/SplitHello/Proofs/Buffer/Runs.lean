import SplitHello.Proofs.Buffer.Room

/-!
# Proofs/Buffer/Runs — runs of requests to buffers that are cut off one another

A shelf holds a buffer and all that was cut off it, and remembers of each the lengths for which it
was to have room.  Whatever is asked of which, and however filling ends, what each holds fits its
room, and that is the least that does for all of these lengths.

* `capacity_after` — a request changes the room only by growing it for what it wants;
* `Kept.after`, `kept_cutOff` — what holds of a buffer holds once it did what it was asked, and of
  what was cut off it;
* `Shelf.kept_perform`, `Shelf.grows_perform` — one request keeps what holds of all buffers, and
  takes room from none;
* `shelf_of_calls` — so does a run of them.
-/

namespace SplitHello.Buffer

/-- What can be asked of a buffer. -/
inductive Request where
  /-- To have a content of `n` bytes. -/
  | resize (n : Nat)
  /-- To read from a source until the content has at least `n` bytes. -/
  | fillTo (source : Source) (n : Nat)
  /-- To set the read offset. -/
  | seek (offset : Nat)
  /-- To read at most `n` bytes. -/
  | read (n : Nat)
  /-- To keep the first `n` bytes, and to cut off the rest. -/
  | cutAt (n : Nat)

/-- The length that a request names.  A place to read from, or a number of bytes to read, is
none. -/
def Request.length : Request → Nat
  | resize n | fillTo _ n | cutAt n => n
  | seek _ | read _ => 0

/-- The buffer once it did what it was asked. -/
def after (buffer : Buffer) : Request → Buffer
  | .resize n => buffer.resize n
  | .fillTo source n => (buffer.fillTo source n).state.1
  | .seek offset => buffer.seek offset
  | .read n => (buffer.read n).2
  | .cutAt n => (buffer.cutAt n).2

/-- What a request cuts off. -/
def cutOff (buffer : Buffer) : Request → Option Buffer
  | .cutAt n => (buffer.cutAt n).1
  | _ => none

/-- The length for which a request wants room.  Filling wants none if the content is long enough. -/
def wants (buffer : Buffer) : Request → Option Nat
  | .resize n => some n
  | .fillTo _ n => if n ≤ buffer.bytes.length then none else some n
  | _ => none

variable {buffer rest : Buffer} {asked : List Nat} {request : Request} {n : Nat}

/-! ## One buffer -/

/-- **A request changes the room only by growing it for what it wants.** -/
theorem capacity_after (buffer : Buffer) (request : Request) :
    (buffer.after request).capacity =
      (buffer.wants request).elim buffer.capacity (grown buffer.capacity) := by
  cases request with
  | resize n => rfl
  | fillTo source n =>
      rw [after, wants, fillTo]
      split <;> rfl
  | seek offset => rfl
  | read n => rfl
  | cutAt n =>
      rw [after, cutAt]
      split <;> rfl

theorem capacity_le_after (buffer : Buffer) (request : Request) :
    buffer.capacity ≤ (buffer.after request).capacity := by
  rw [capacity_after]
  cases buffer.wants request with
  | none => exact Nat.le_refl _
  | some n => exact self_le_grown buffer.capacity n

theorem le_length_of_wants (h : buffer.wants request = some n) : n ≤ request.length := by
  cases request with
  | resize m => exact Nat.le_of_eq (Option.some.inj h).symm
  | fillTo source m =>
      rw [wants] at h
      split at h
      · cases h
      · exact Nat.le_of_eq (Option.some.inj h).symm
  | seek | read | cutAt => cases h

theorem Fits.after (h : buffer.Fits) (request : Request) : (buffer.after request).Fits := by
  cases request with
  | resize n => exact h.resize n
  | fillTo source n => exact h.fillTo source n
  | seek offset => exact h.seek offset
  | read n => exact h.read n
  | cutAt n => exact h.cutAt n

theorem exists_cutAt_of_cutOff (h : buffer.cutOff request = some rest) :
    ∃ n, (buffer.cutAt n).1 = some rest := by
  cases request with
  | cutAt n => exact ⟨n, h⟩
  | resize | fillTo | seek | read => cases h

/-- What holds of a buffer that was to have room for some lengths. -/
structure Kept (buffer : Buffer) (asked : List Nat) : Prop where
  /-- What is read is in the content. -/
  offset_le : buffer.offset ≤ buffer.bytes.length
  /-- The content and what is still there past it are in the room. -/
  held_le : buffer.bytes.length + buffer.beyond.length ≤ buffer.capacity
  /-- The room is the least that does for all of the lengths. -/
  isLeast : IsLeast {room | IsRoom room ∧ ∀ n ∈ asked, n ≤ room} buffer.capacity
  /-- The room is no more than half of what a machine word can count. -/
  capacity_le : buffer.capacity ≤ 2 ^ 63

theorem kept_empty : Kept empty [] where
  offset_le := Nat.le_refl 0
  held_le := Nat.le_refl 0
  isLeast := ⟨⟨isRoom_zero, fun _ h => absurd h List.not_mem_nil⟩, fun room _ => Nat.zero_le room⟩
  capacity_le := Nat.zero_le _

theorem Kept.fits (h : Kept buffer asked) : buffer.Fits := ⟨h.offset_le, h.held_le, h.isLeast.1.1⟩

/-- Half of what a machine word can count is a room. -/
theorem isRoom_halfWord : IsRoom (2 ^ 63) := .inr ⟨53, rfl⟩

/-- A room grown for one more length is the least that does for it as well. -/
theorem Kept.isLeast_grown (h : Kept buffer asked) (n : Nat) :
    IsLeast {room | IsRoom room ∧ ∀ m ∈ n :: asked, m ≤ room} (grown buffer.capacity n) := by
  obtain ⟨⟨hroom, hle, hn⟩, hleast⟩ := Buffer.isLeast_grown h.isLeast.1.1 n
  refine ⟨⟨hroom, List.forall_mem_cons.mpr ⟨hn, fun m hm => ?_⟩⟩, fun room ⟨hroom, hall⟩ => ?_⟩
  · exact Nat.le_trans (h.isLeast.1.2 m hm) hle
  · obtain ⟨hn, hasked⟩ := List.forall_mem_cons.mp hall
    exact hleast ⟨hroom, h.isLeast.2 ⟨hroom, hasked⟩, hn⟩

/-- **What holds of a buffer holds once it did what it was asked.** -/
theorem Kept.after (h : Kept buffer asked) (hlength : request.length ≤ 2 ^ 63) :
    Kept (buffer.after request) ((buffer.wants request).toList ++ asked) := by
  have hfits := h.fits.after request
  have hcapacity := buffer.capacity_after request
  refine ⟨hfits.offset_le, hfits.held_le, ?_, ?_⟩
  · rw [hcapacity]
    cases buffer.wants request with
    | none => exact h.isLeast
    | some n => exact h.isLeast_grown n
  · rw [hcapacity]
    cases hwants : buffer.wants request with
    | none => exact h.capacity_le
    | some n =>
        exact grown_le h.isLeast.1.1 isRoom_halfWord h.capacity_le
          (Nat.le_trans (le_length_of_wants hwants) hlength)

/-- **What is cut off a buffer was to have room for its own length.** -/
theorem kept_cutOff (h : Kept buffer asked) (hcut : buffer.cutOff request = some rest) :
    Kept rest [rest.bytes.length] := by
  obtain ⟨n, hcut⟩ := exists_cutAt_of_cutOff hcut
  obtain ⟨hfits, hbytes, -, hcapacity⟩ := fits_of_cutAt hcut
  have hlength : rest.bytes.length ≤ 2 ^ 63 := by
    have hle := Nat.le_trans h.fits.length_le h.capacity_le
    rw [hbytes, List.length_drop]
    omega
  refine ⟨hfits.offset_le, hfits.held_le, ?_, ?_⟩
  · rw [hcapacity]
    exact kept_empty.isLeast_grown _
  · rw [hcapacity]
    exact grown_le isRoom_zero isRoom_halfWord (Nat.zero_le _) hlength

/-! ## What the operations do to the content -/

/-- What operations that name the length `n` do to the content of a buffer. -/
structure Operates (buffer : Buffer) (n : Nat) : Prop where
  /-- Resized, it has that length. -/
  length_resize : (buffer.resize n).bytes.length = n
  /-- As much of what it had is kept as fits. -/
  resize : (buffer.resize n).bytes.take (min buffer.bytes.length n) =
    buffer.bytes.take (min buffer.bytes.length n)
  /-- Nothing is cut off if it is no longer. -/
  cutAt_eq_none : (buffer.cutAt n).1 = none ↔ buffer.bytes.length ≤ n
  /-- Then nothing changes. -/
  cutAt_of_none : (buffer.cutAt n).1 = none → (buffer.cutAt n).2 = buffer
  /-- Otherwise the first bytes stay, and the others are cut off, of which none is read. -/
  cutAt_of_some : ∀ rest, (buffer.cutAt n).1 = some rest →
    (buffer.cutAt n).2.bytes = buffer.bytes.take n ∧ rest.bytes = buffer.bytes.drop n ∧
      rest.offset = 0
  /-- What is read is what comes next, as much as there is. -/
  read : (buffer.read n).1 = buffer.unread.take n
  /-- The offset is moved past it, and nothing else changes. -/
  read_state : (buffer.read n).2 =
    { buffer with offset := buffer.offset + min n buffer.unread.length }

theorem resize_take (buffer : Buffer) (n : Nat) :
    (buffer.resize n).bytes.take (min buffer.bytes.length n) =
      buffer.bytes.take (min buffer.bytes.length n) := by
  have hle : min buffer.bytes.length n ≤ ((buffer.bytes ++ buffer.beyond).take n).length := by
    rw [List.length_take, List.length_append]
    omega
  rw [resize]
  dsimp only
  rw [List.take_append_of_le_length hle, List.take_take, Nat.min_eq_left (Nat.min_le_right _ _),
    List.take_append_of_le_length (Nat.min_le_left _ _)]

theorem operates (buffer : Buffer) (n : Nat) : Operates buffer n where
  length_resize := length_bytes_resize buffer n
  resize := buffer.resize_take n
  cutAt_eq_none := by
    rw [cutAt]
    split
    · next hle => exact iff_of_true rfl hle
    · next hlt => exact iff_of_false (Option.some_ne_none _) hlt
  cutAt_of_none h := by
    rw [cutAt] at h ⊢
    split at h
    · next hle => rw [if_pos hle]
    · cases h
  cutAt_of_some rest h := by
    obtain ⟨-, hbytes, hoffset, -⟩ := fits_of_cutAt h
    refine ⟨?_, hbytes, hoffset⟩
    rw [cutAt] at h ⊢
    split at h
    · cases h
    · next hlt => rw [if_neg hlt]
  read := rfl
  read_state := by rw [Buffer.read, List.length_take]

/-! ## Several buffers -/

/-- Buffers that were cut off one another, and of each the lengths for which it was to have room. -/
abbrev Shelf := List (Buffer × List Nat)

namespace Shelf

/-- One buffer without room, of which nothing was asked. -/
def start : Shelf := [(.empty, [])]

/-- Ask something of the buffer at a place.  What is cut off it comes last. -/
def perform (shelf : Shelf) (call : Nat × Request) : Shelf :=
  match shelf[call.1]? with
  | none => shelf
  | some (buffer, asked) =>
      shelf.set call.1 (buffer.after call.2, (buffer.wants call.2).toList ++ asked) ++
        ((buffer.cutOff call.2).map fun rest => (rest, [rest.bytes.length])).toList

/-- The shelf after some requests. -/
def run (calls : List (Nat × Request)) : Shelf := calls.foldl perform start

variable {shelf later last : Shelf} {call : Nat × Request}

/-- **One request keeps what holds of all buffers.** -/
theorem kept_perform (h : ∀ entry ∈ shelf, Kept entry.1 entry.2)
    (hlength : call.2.length ≤ 2 ^ 63) :
    ∀ entry ∈ shelf.perform call, Kept entry.1 entry.2 := by
  rw [perform]
  split
  · exact h
  · next buffer asked hfound =>
    have hkept : Kept buffer asked := h _ (List.mem_of_getElem? hfound)
    refine List.forall_mem_append.mpr ⟨fun entry hentry => ?_, fun entry hentry => ?_⟩
    · obtain hother | rfl := List.mem_or_eq_of_mem_set hentry
      · exact h entry hother
      · exact hkept.after hlength
    · obtain ⟨rest, hrest, rfl⟩ := Option.map_eq_some_iff.mp (Option.mem_toList.mp hentry)
      exact kept_cutOff hkept hrest

/-- No buffer of a shelf is missing on a later one, or has less room there. -/
def Grows (shelf later : Shelf) : Prop :=
  ∀ (place : Nat) (entry : Buffer × List Nat), shelf[place]? = some entry →
    ∃ entry', later[place]? = some entry' ∧ entry.1.capacity ≤ entry'.1.capacity

theorem Grows.refl (shelf : Shelf) : Grows shelf shelf :=
  fun _ entry h => ⟨entry, h, Nat.le_refl _⟩

theorem Grows.trans (h : Grows shelf later) (h' : Grows later last) : Grows shelf last := by
  intro place entry hentry
  obtain ⟨entry', hentry', hle⟩ := h place entry hentry
  obtain ⟨entry'', hentry'', hle'⟩ := h' place entry' hentry'
  exact ⟨entry'', hentry'', Nat.le_trans hle hle'⟩

/-- **One request takes room from no buffer.** -/
theorem grows_perform (shelf : Shelf) (call : Nat × Request) :
    Grows shelf (shelf.perform call) := by
  rw [perform]
  split
  · exact .refl shelf
  · next buffer asked hfound =>
    intro place entry hentry
    obtain ⟨hlt, -⟩ := List.getElem?_eq_some_iff.mp hentry
    rw [List.getElem?_append_left (by rwa [List.length_set])]
    by_cases hplace : call.1 = place
    · subst hplace
      obtain rfl : (buffer, asked) = entry := Option.some.inj (hfound.symm.trans hentry)
      exact ⟨_, List.getElem?_set_self hlt, capacity_le_after buffer call.2⟩
    · exact ⟨entry, (List.getElem?_set_ne hplace).trans hentry, Nat.le_refl _⟩

theorem kept_foldl {calls : List (Nat × Request)} (h : ∀ entry ∈ shelf, Kept entry.1 entry.2)
    (hcalls : ∀ call ∈ calls, call.2.length ≤ 2 ^ 63) :
    ∀ entry ∈ calls.foldl perform shelf, Kept entry.1 entry.2 := by
  induction calls generalizing shelf with
  | nil => exact h
  | cons call calls ih =>
      obtain ⟨hcall, hlater⟩ := List.forall_mem_cons.mp hcalls
      exact ih (kept_perform h hcall) hlater

theorem grows_foldl (shelf : Shelf) (calls : List (Nat × Request)) :
    Grows shelf (calls.foldl perform shelf) := by
  induction calls generalizing shelf with
  | nil => exact .refl shelf
  | cons call calls ih => exact (grows_perform shelf call).trans (ih (shelf.perform call))

end Shelf

/-- A buffer is filled, read from, and cut below its offset, grown past its first room and shrunk;
what was cut off it is read from. -/
def sampleCalls : List (Nat × Request) :=
  [(0, .fillTo (.ofBytes [1, 2, 3, 4, 5, 6]) 4), (0, .seek 5), (0, .cutAt 4), (1, .read 1),
    (0, .resize 1030), (0, .resize 2)]

end SplitHello.Buffer
