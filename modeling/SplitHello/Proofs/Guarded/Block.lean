import SplitHello.Buffer
import SplitHello.Proofs.Guarded.Operations

/-!
# Proofs/Guarded/Block — a buffer with guarded operations

A guarded block is the bytes of its whole room, a length and a read offset.  What is read from a
source lands in the room past the length; `Holds` says that the offset is no more than the length
and the length no more than the room, and then every part of the room that is looked at is there.

* `agrees_fillLoop`, `agrees_fillTo` — filling a block is filling the buffer that it holds;
* `splitOff_eq_some` — so is cutting one.
-/

namespace SplitHello.Guarded

/-- A block of bytes. -/
structure Block where
  /-- The bytes of the whole room. -/
  room : Bytes
  /-- How many of them are content. -/
  length : Nat
  /-- How many bytes of the content have been read. -/
  offset : Nat

namespace Block

/-! ## What is done with a block -/

/-- A block without room. -/
def empty : Block := ⟨[], 0, 0⟩

/-- The content. -/
def content (block : Block) : Option Bytes := slice block.room 0 block.length

/-- The content not yet read. -/
def unread (block : Block) : Option Bytes := slice block.room block.offset block.length

/-- The block with its read offset set, at most to the end of the content. -/
def seek (block : Block) (offset : Nat) : Block := { block with offset := min offset block.length }

/-- The block with room for at least `n` bytes, zeros where there was none. -/
def reserve (block : Block) (n : Nat) : Block :=
  let more := Buffer.grown block.room.length n - block.room.length
  { block with room := block.room ++ List.replicate more 0 }

/-- The block with a content of `n` bytes. -/
def resize (block : Block) (n : Nat) : Block :=
  { block.reserve n with length := n, offset := min block.offset n }

/-- The block once `chunk` was read into its room, past the content. -/
def put (block : Block) (chunk : Bytes) : Block :=
  { block with
    room := block.room.take block.length ++ chunk ++ block.room.drop (block.length + chunk.length)
    length := block.length + chunk.length }

/-- How long the room past the content is. -/
def spare (block : Block) : Option Nat := do
  return (← slice block.room block.length block.room.length).length

/-- Read from a source into the room past the content, until that has at least `n` bytes. -/
def fillLoop (turns : Nat) (block : Block) (source : Source) (n : Nat) :
    Option (Reply (Block × Source) (Option Failure)) :=
  match turns with
  | 0 => none
  | turns + 1 => do
      match source.read (← block.spare) with
      | ⟨.error failure, source, journal⟩ =>
          if failure.isInterrupted then return (← fillLoop turns block source n).after journal
          else return ⟨some failure, (block, source), journal⟩
      | ⟨.ok chunk, source, journal⟩ =>
          let filled := block.put chunk
          if chunk = [] then return ⟨some (.io .sourceEnded), (block, source), journal⟩
          else if n ≤ filled.length then return ⟨none, (filled, source), journal⟩
          else return (← fillLoop turns filled source n).after journal

/-- Read from a source until the content has at least `n` bytes. -/
def fillTo (block : Block) (source : Source) (n : Nat) :
    Option (Reply (Block × Source) (Option Failure)) :=
  if n ≤ block.length then return ⟨none, (block, source), []⟩
  else fillLoop (source.weight + 1) (block.reserve n) source n

/-- The block with `bytes` at the start of its room, of which they must be the first `n`. -/
def copyFront (block : Block) (n : Nat) (bytes : Bytes) : Option Block := do
  let place ← slice block.room 0 n
  let bytes ← exactly place.length bytes
  return { block with room := bytes.val ++ block.room.drop n }

/-- The first `n` bytes of the content, and a block with the rest if there is any. -/
def splitOff (block : Block) (n : Nat) : Option (Option Block × Block) :=
  if block.length ≤ n then return (none, block)
  else do
    let size ← minus block.length n
    let tail ← slice block.room n block.length
    let rest ← (empty.resize size).copyFront size tail
    return (some rest, { block with length := n, offset := min block.offset n })

/-! ## What a block holds -/

/-- A block holds what a buffer does, in as much room. -/
structure Holds (block : Block) (buffer : Buffer) : Prop where
  /-- The content is in the room. -/
  length_le : block.length ≤ block.room.length
  /-- What is read is in the content. -/
  offset_le : block.offset ≤ block.length
  /-- The content. -/
  content : block.room.take block.length = buffer.bytes
  /-- The room. -/
  capacity : block.room.length = buffer.capacity
  /-- How much is read. -/
  offset : block.offset = buffer.offset

variable {block : Block} {buffer : Buffer} {n : Nat}

theorem holds_empty : empty.Holds .empty := ⟨Nat.le_refl _, Nat.le_refl _, rfl, rfl, rfl⟩

namespace Holds

theorem length_eq (h : block.Holds buffer) : block.length = buffer.bytes.length := by
  rw [← h.content, List.length_take, Nat.min_eq_left h.length_le]

theorem content_eq (h : block.Holds buffer) : block.content = some buffer.bytes := by
  rw [Block.content, slice_front h.length_le, h.content]

theorem unread_eq (h : block.Holds buffer) : block.unread = some buffer.unread := by
  rw [Block.unread, slice_eq_some h.offset_le h.length_le, h.content, h.offset, Buffer.unread]

/-- The room past the content can be sliced. -/
theorem spare_eq (h : block.Holds buffer) {room : Nat}
    (hroom : buffer.bytes.length + room = buffer.capacity) : block.spare = some room := by
  have hlength : (block.room.drop block.length).length = room := by
    rw [List.length_drop, h.capacity, h.length_eq]
    omega
  rw [spare, slice_rest h.length_le]
  exact congrArg some hlength

theorem seek (h : block.Holds buffer) (offset : Nat) :
    (block.seek offset).Holds (buffer.seek offset) where
  length_le := h.length_le
  offset_le := Nat.min_le_right _ _
  content := h.content
  capacity := h.capacity
  offset := congrArg (min offset) h.length_eq

/-- More room holds the same. -/
theorem reserve (h : block.Holds buffer) (n : Nat) :
    (block.reserve n).Holds { buffer with capacity := Buffer.grown buffer.capacity n } where
  length_le := by
    rw [Block.reserve, List.length_append]
    exact Nat.le_add_right_of_le h.length_le
  offset_le := h.offset_le
  content := (List.take_append_of_le_length h.length_le).trans h.content
  capacity := by
    rw [Block.reserve, List.length_append, List.length_replicate, h.capacity]
    exact Nat.add_sub_cancel' (Buffer.self_le_grown buffer.capacity n)
  offset := h.offset

/-- What is read into the room is content. -/
theorem put (h : block.Holds buffer) (chunk : Bytes)
    (hfits : buffer.bytes.length + chunk.length ≤ buffer.capacity) :
    (block.put chunk).Holds (buffer.extend buffer.capacity chunk) := by
  have hroom : block.length + chunk.length ≤ block.room.length := by
    rwa [h.length_eq, h.capacity]
  have hlength : (block.put chunk).room.length = block.room.length := by
    simp only [Block.put, List.length_append, List.length_take, List.length_drop]
    omega
  refine ⟨hlength.symm ▸ hroom, Nat.le_add_right_of_le h.offset_le, ?_, hlength.trans h.capacity,
    h.offset⟩
  have hfront : (block.room.take block.length ++ chunk).length = block.length + chunk.length := by
    rw [List.length_append, h.content, h.length_eq]
  rw [Block.put, ← hfront, List.take_left, h.content]
  rfl

end Holds

/-! ## Filling -/

/-- A block and a source stand for a buffer and the same source. -/
def Stands (state : Block × Source) (state' : Buffer × Source) : Prop :=
  state.1.Holds state'.1 ∧ state.2 = state'.2

/-- **Reading into the room past the content is filling the buffer**, and every turn leaves less of
the source to account for. -/
theorem agrees_fillLoop (source : Source) (need room : Nat) {turns : Nat} (h : block.Holds buffer)
    (hneed : buffer.bytes.length + need = n) (hpos : need ≠ 0)
    (hroom : buffer.bytes.length + room = buffer.capacity) (hturns : source.weight < turns) :
    Agrees Stands (block.fillLoop turns source n)
      ⟨(source.fill need room).result.2,
        (buffer.extend buffer.capacity (source.fill need room).result.1,
          (source.fill need room).state),
        (source.fill need room).journal⟩ := by
  fun_induction Source.fill source need room generalizing block buffer turns with
  | case1 => exact absurd rfl hpos
  | case2 source need room hn failure after journal hread hless hi ih =>
      obtain ⟨turns, rfl⟩ := Nat.exists_eq_add_one_of_ne_zero (Nat.ne_zero_of_lt hturns)
      rw [fillLoop, h.spare_eq hroom]
      simp only [Option.bind_eq_bind, Option.bind_some, hread, if_pos hi]
      exact (ih h hneed hpos hroom (by omega)).after journal
  | case3 source need room hn failure after journal hread _ hi =>
      obtain ⟨turns, rfl⟩ := Nat.exists_eq_add_one_of_ne_zero (Nat.ne_zero_of_lt hturns)
      rw [fillLoop, h.spare_eq hroom]
      simp only [Option.bind_eq_bind, Option.bind_some, hread, if_neg hi, Buffer.extend_nil]
      exact .intro ⟨h, rfl⟩
  | case4 source need room hn after journal hread =>
      obtain ⟨turns, rfl⟩ := Nat.exists_eq_add_one_of_ne_zero (Nat.ne_zero_of_lt hturns)
      rw [fillLoop, h.spare_eq hroom]
      simp only [Option.bind_eq_bind, Option.bind_some, hread, Buffer.extend_nil]
      exact .intro ⟨h, rfl⟩
  | case5 source need room hn chunk after journal hread hc hless ih =>
      obtain ⟨turns, rfl⟩ := Nat.exists_eq_add_one_of_ne_zero (Nat.ne_zero_of_lt hturns)
      have hfits := (Source.read_ok hread).2.1
      have hput := h.put chunk (by omega)
      have hlength : (block.put chunk).length = buffer.bytes.length + chunk.length := by
        rw [hput.length_eq, Buffer.length_bytes_extend]
      rw [fillLoop, h.spare_eq hroom]
      simp only [Option.bind_eq_bind, Option.bind_some, hread, if_neg hc, hlength]
      by_cases hlast : n ≤ buffer.bytes.length + chunk.length
      · have hdone : need - chunk.length = 0 := by omega
        rw [if_pos hlast, hdone, Source.fill, if_pos rfl]
        simp only [Reply.result_after, Reply.result_map, Reply.state_after, Reply.state_map,
          Reply.journal_after, Reply.journal_map, List.append_nil]
        exact .intro ⟨hput, rfl⟩
      · have hleft : after.weight < turns := by omega
        have hlater := ih hput (by rw [Buffer.length_bytes_extend]; omega) (by omega)
          (by rw [Buffer.length_bytes_extend, Buffer.capacity_extend]; omega) hleft
        rw [Buffer.capacity_extend, Buffer.extend_extend] at hlater
        rw [if_neg hlast]
        exact hlater.after journal

/-- So is reading only if the content is short. -/
theorem agrees_fillTo (h : block.Holds buffer) (source : Source) (n : Nat) :
    Agrees Stands (block.fillTo source n) (buffer.fillTo source n) := by
  rw [fillTo, Buffer.fillTo, h.length_eq]
  by_cases hlong : n ≤ buffer.bytes.length
  · rw [if_pos hlong, if_pos hlong]
    exact .intro ⟨h, rfl⟩
  · have hroom := Buffer.le_grown buffer.capacity n
    rw [if_neg hlong, if_neg hlong]
    exact agrees_fillLoop source _ _ (h.reserve n) (Nat.add_sub_cancel' (Nat.le_of_not_le hlong))
      (Nat.sub_ne_zero_of_lt (Nat.lt_of_not_le hlong))
      (Nat.add_sub_cancel' (Nat.le_trans (Nat.le_of_not_le hlong) hroom)) (Nat.lt_succ_self _)

/-! ## Cutting -/

theorem copyFront_eq_some {bytes : Bytes} (hroom : bytes.length ≤ block.room.length) :
    block.copyFront bytes.length bytes =
      some { block with room := bytes ++ block.room.drop bytes.length } := by
  have hplace : (block.room.take bytes.length).length = bytes.length := by
    rw [List.length_take, Nat.min_eq_left hroom]
  rw [copyFront, slice_front hroom, Option.bind_eq_bind, Option.bind_some,
    exactly_eq_some hplace.symm]
  rfl

/-- **A new block holds what is copied to it** if it has that size. -/
theorem exists_copyFront (bytes : Bytes) : ∃ block,
    (empty.resize bytes.length).copyFront bytes.length bytes = some block ∧
      block.Holds ⟨bytes, [], Buffer.grown 0 bytes.length, 0⟩ := by
  have hroom : (empty.resize bytes.length).room.length = Buffer.grown 0 bytes.length :=
    List.length_replicate
  have hfits : bytes.length ≤ (empty.resize bytes.length).room.length :=
    hroom ▸ Buffer.le_grown 0 bytes.length
  have hlength : (bytes ++ (empty.resize bytes.length).room.drop bytes.length).length =
      Buffer.grown 0 bytes.length := by
    rw [List.length_append, List.length_drop, Nat.add_sub_cancel' hfits, hroom]
  exact ⟨_, copyFront_eq_some hfits, hlength ▸ hroom ▸ hfits, Nat.min_le_right _ _, List.take_left,
    hlength, Nat.zero_min _⟩

/-- **What is cut off fits the block that it is copied to.** -/
theorem splitOff_eq_some (h : block.Holds buffer) (n : Nat) : ∃ rest record,
    block.splitOff n = some (rest, record) ∧ Option.Rel Holds rest (buffer.cutAt n).1 ∧
      record.Holds (buffer.cutAt n).2 := by
  rw [splitOff, Buffer.cutAt, h.length_eq]
  by_cases hshort : buffer.bytes.length ≤ n
  · rw [if_pos hshort, if_pos hshort]
    exact ⟨none, block, rfl, .none, h⟩
  · have hn : n ≤ block.length := h.length_eq ▸ Nat.le_of_not_le hshort
    have htail : slice block.room n buffer.bytes.length = some (buffer.bytes.drop n) := by
      rw [← h.length_eq, slice_eq_some hn h.length_le, h.content]
    obtain ⟨rest, hcopy, hrest⟩ := exists_copyFront (buffer.bytes.drop n)
    rw [if_neg hshort, if_neg hshort, minus_eq_some (Nat.le_of_not_le hshort), htail,
      ← List.length_drop]
    refine ⟨some rest, { block with length := n, offset := min block.offset n }, ?_, .some hrest,
      ?_⟩
    · simp only [Option.bind_eq_bind, Option.bind_some, hcopy]
      rfl
    · refine ⟨Nat.le_trans hn h.length_le, Nat.min_le_right _ _, ?_, h.capacity,
        congrArg (min · n) h.offset⟩
      rw [← h.content, List.take_take, Nat.min_eq_left hn]

end Block

end SplitHello.Guarded
