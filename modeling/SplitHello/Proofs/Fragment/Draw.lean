import Mathlib.Algebra.Order.Floor.Div
import SplitHello.Proofs.Fragment.Size

/-!
# Proofs/Fragment/Draw — the fragments of a zone, draw by draw

For each fragment of a zone a size and then a pause are drawn, from the words that the draws ahead
of it have left.  A fragment takes as many bytes as its size says, and one at least; only the last
may find fewer.

* `Fragment.getElem_cut` — what the `i`-th fragment of a zone is;
* `CutTo.length_getElem_of_lt` — a piece with another behind it is as long as its width;
* `CutTo.length_le_ceilDiv`, `CutTo.ceilDiv_le_length` — how many pieces there are;
* `CutTo.eq_chunks` — pieces of one width are chunks;
* `Fragment.cutAsDrawn_cut` — so the fragments of a zone are as long as the sizes drawn for them
  say.
-/

namespace SplitHello

/-! ## Draws -/

/-- What is drawn for a fragment. -/
structure Draw where
  /-- How many bytes it is to have. -/
  size : UInt64
  /-- The pause after it, in milliseconds. -/
  delay : UInt64
  /-- The random words that are left. -/
  words : Words

namespace Draw

/-- A size and then a pause, drawn from some words. -/
def next (sizes delays : Interval) (words : Words) : Draw :=
  let size := sizes.sample words
  let delay := delays.sample size.2
  ⟨size.1, delay.1, delay.2⟩

/-- The words that `n` draws leave. -/
def wordsAfter (sizes delays : Interval) (words : Words) : Nat → Words
  | 0 => words
  | n + 1 => wordsAfter sizes delays (next sizes delays words).words n

/-- The draw that has `n` draws ahead of it. -/
def nth (sizes delays : Interval) (words : Words) (n : Nat) : Draw :=
  next sizes delays (wordsAfter sizes delays words n)

/-- How many bytes the fragment takes if there are as many: one at least. -/
def width (draw : Draw) : Nat := max 1 draw.size.toNat

variable (sizes delays : Interval) (words : Words)

theorem nth_succ (n : Nat) :
    nth sizes delays words (n + 1) = nth sizes delays (next sizes delays words).words n := rfl

/-- A size is one of those that it is drawn from. -/
theorem mem_size_nth (n : Nat) :
    sizes.min ≤ (nth sizes delays words n).size ∧ (nth sizes delays words n).size ≤ sizes.max :=
  sizes.mem_sample _

/-- A width lies between the least size and the greatest, where a size of nothing counts as one
byte. -/
theorem width_nth_mem (n : Nat) :
    max 1 sizes.min.toNat ≤ (nth sizes delays words n).width ∧
      (nth sizes delays words n).width ≤ max 1 sizes.max.toNat := by
  obtain ⟨hmin, hmax⟩ := mem_size_nth sizes delays words n
  rw [UInt64.le_iff_toNat_le] at hmin hmax
  exact ⟨max_le_max_left 1 hmin, max_le_max_left 1 hmax⟩

end Draw

namespace Fragment

variable {sizes delays : Interval} {words : Words} {zone : Bytes}

/-- **The first fragment takes the front of the zone**, as wide as its draw says, and the others are
cut from what it leaves. -/
theorem cut_eq_cons_iff {x : Fragment} {later : List Fragment} :
    cut sizes delays words zone = x :: later ↔
      let draw := Draw.next sizes delays words
      zone ≠ [] ∧ x = ⟨zone.take draw.width, draw.delay, draw.words⟩ ∧
        cut sizes delays draw.words (zone.drop draw.width) = later := by
  dsimp only
  obtain _ | ⟨first, rest⟩ := zone
  · rw [cut]
    exact iff_of_false (List.cons_ne_nil _ _).symm fun h => h.1 rfl
  · have hwidth : (Draw.next sizes delays words).width =
        ((sizes.sample words).1.toNat - 1) + 1 := by
      change max 1 (sizes.sample words).1.toNat = _
      omega
    rw [cut, List.cons.injEq, hwidth, List.take_succ_cons, List.drop_succ_cons, eq_comm (a := x)]
    exact (and_iff_right (List.cons_ne_nil first rest)).symm

/-- **What the `i`-th fragment of a zone is**: behind those ahead of it, as wide as its draw
says. -/
theorem getElem_cut (i : Nat) (hi : i < (cut sizes delays words zone).length) :
    let draw := Draw.nth sizes delays words i
    (cut sizes delays words zone)[i] =
      ⟨(zone.drop (((cut sizes delays words zone).take i).flatMap bytes).length).take draw.width,
        draw.delay, draw.words⟩ := by
  generalize hcut : cut sizes delays words zone = fragments at hi ⊢
  induction fragments generalizing words zone i with
  | nil => exact absurd hi (Nat.not_lt_zero i)
  | cons x later ih =>
      obtain ⟨-, rfl, hlater⟩ := cut_eq_cons_iff.mp hcut
      cases i with
      | zero => rfl
      | succ i =>
          -- a first fragment that is cut short leaves nothing, just as one of its full width does
          have hdrop : ∀ k, (zone.drop (Draw.next sizes delays words).width).drop k =
              zone.drop ((zone.take (Draw.next sizes delays words).width).length + k) := by
            intro k
            rw [List.drop_drop, List.length_take]
            rcases Nat.le_total (Draw.next sizes delays words).width zone.length with h | h
            · rw [Nat.min_eq_left h]
            · rw [Nat.min_eq_right h, List.drop_of_length_le (Nat.le_add_right_of_le h),
                List.drop_of_length_le (Nat.le_add_right _ _)]
          have hih := ih i hlater (Nat.lt_of_succ_lt_succ hi)
          dsimp only at hih ⊢
          rw [List.getElem_cons_succ, hih, hdrop, Draw.nth_succ, List.take_succ_cons,
            List.flatMap_cons, List.length_append]

/-- The fragments are their bytes with what is drawn for them. -/
theorem mapIdx_cut {α : Type} (view : Nat → Fragment → α) (sizes delays : Interval) (words : Words)
    (zone : Bytes) :
    (cut sizes delays words zone).mapIdx view =
      ((cut sizes delays words zone).map bytes).mapIdx fun i piece =>
        let draw := Draw.nth sizes delays words i
        view i ⟨piece, draw.delay, draw.words⟩ := by
  refine List.ext_getElem ?_ fun i hi _ => ?_
  · rw [List.length_mapIdx, List.length_mapIdx, List.length_map]
  · rw [List.length_mapIdx] at hi
    rw [List.getElem_mapIdx, List.getElem_mapIdx, List.getElem_map, getElem_cut i hi]

end Fragment

/-! ## Pieces of given widths -/

/-- Pieces that a zone is cut into, each as wide as it may be. -/
structure CutTo (width : Nat → Nat) (zone : Bytes) (pieces : List Bytes) : Prop where
  /-- They make up the zone. -/
  whole : pieces.flatten = zone
  /-- None of them is empty. -/
  ne_nil : ∀ piece ∈ pieces, piece ≠ []
  /-- Each takes its width of what those ahead of it have left. -/
  getElem_eq : ∀ (i : Nat) (hi : i < pieces.length),
    pieces[i] = (zone.drop (pieces.take i).flatten.length).take (width i)

/-- The fragments of a zone are such pieces. -/
theorem Fragment.cutTo_cut (sizes delays : Interval) (words : Words) (zone : Bytes) :
    CutTo (fun i => (Draw.nth sizes delays words i).width) zone
      ((cut sizes delays words zone).map bytes) where
  whole := (List.flatMap_def ..).symm.trans (flatMap_cut sizes delays words zone)
  ne_nil := List.forall_mem_map.mpr fun _ hx => ne_nil_of_mem_cut hx
  getElem_eq i hi := by
    rw [List.length_map] at hi
    rw [List.getElem_map, getElem_cut i hi, ← List.map_take, ← List.flatMap_def]

namespace CutTo

variable {width : Nat → Nat} {zone : Bytes} {pieces : List Bytes} {i : Nat}

theorem length_getElem (h : CutTo width zone pieces) (hi : i < pieces.length) :
    pieces[i].length = min (width i) (zone.length - (pieces.take i).flatten.length) := by
  rw [h.getElem_eq i hi, List.length_take, List.length_drop]

theorem length_getElem_pos (h : CutTo width zone pieces) (hi : i < pieces.length) :
    0 < pieces[i].length :=
  List.length_pos_iff.mpr (h.ne_nil _ (List.getElem_mem hi))

/-- The pieces up to one are those ahead of it, and it. -/
theorem length_flatten_take_succ (hi : i < pieces.length) :
    (pieces.take (i + 1)).flatten.length =
      (pieces.take i).flatten.length + pieces[i].length := by
  rw [List.take_succ_eq_append_getElem hi, List.flatten_append, List.length_append,
    List.flatten_singleton]

/-- Every piece stands inside the zone. -/
theorem length_flatten_take_lt (h : CutTo width zone pieces) (hi : i < pieces.length) :
    (pieces.take i).flatten.length < zone.length := by
  have hpos := h.length_getElem_pos hi
  have hlength := h.length_getElem hi
  omega

/-- **A piece with another behind it is as long as its width.** -/
theorem length_getElem_of_lt (h : CutTo width zone pieces) (hi : i + 1 < pieces.length) :
    pieces[i].length = width i := by
  have hlt : i < pieces.length := Nat.lt_of_succ_lt hi
  have hlength := h.length_getElem hlt
  have hnext := h.length_flatten_take_lt hi
  rw [length_flatten_take_succ hlt] at hnext
  omega

/-- The pieces ahead of one take at least the least width each. -/
theorem mul_le_length_flatten_take (h : CutTo width zone pieces) {least : Nat}
    (hleast : ∀ i, least ≤ width i) (hi : i < pieces.length) :
    least * i ≤ (pieces.take i).flatten.length := by
  induction i with
  | zero => exact Nat.zero_le _
  | succ i ih =>
      have hwidth := hleast i
      rw [length_flatten_take_succ (Nat.lt_of_succ_lt hi), h.length_getElem_of_lt hi, Nat.mul_succ]
      exact Nat.add_le_add (ih (Nat.lt_of_succ_lt hi)) hwidth

/-- The pieces ahead of a place take at most the greatest width each. -/
theorem length_flatten_take_le (h : CutTo width zone pieces) {most : Nat}
    (hmost : ∀ i, width i ≤ most) (hi : i ≤ pieces.length) :
    (pieces.take i).flatten.length ≤ most * i := by
  induction i with
  | zero => exact Nat.zero_le _
  | succ i ih =>
      have hlength : pieces[i].length ≤ most := by
        rw [h.length_getElem hi]
        exact Nat.le_trans (Nat.min_le_left _ _) (hmost i)
      rw [length_flatten_take_succ hi, Nat.mul_succ]
      exact Nat.add_le_add (ih (Nat.le_of_succ_le hi)) hlength

/-- **There are no more pieces than the zone has widths**, of the least kind. -/
theorem length_le_ceilDiv (h : CutTo width zone pieces) {least : Nat} (hpos : 0 < least)
    (hleast : ∀ i, least ≤ width i) : pieces.length ≤ zone.length ⌈/⌉ least := by
  refine Nat.le_of_not_lt fun hlt => ?_
  have hcovers : zone.length ≤ least * (zone.length ⌈/⌉ least) :=
    (ceilDiv_le_iff_le_mul hpos).mp (Nat.le_refl _)
  have hahead := h.mul_le_length_flatten_take hleast hlt
  have hinside := h.length_flatten_take_lt hlt
  omega

/-- **There are no fewer pieces than the zone has widths**, of the greatest kind. -/
theorem ceilDiv_le_length (h : CutTo width zone pieces) {most : Nat} (hpos : 0 < most)
    (hmost : ∀ i, width i ≤ most) : zone.length ⌈/⌉ most ≤ pieces.length := by
  have hall := h.length_flatten_take_le hmost (Nat.le_refl _)
  rw [List.take_length, h.whole] at hall
  exact (ceilDiv_le_iff_le_mul hpos).mpr hall

/-- **Pieces of one width are chunks of the zone.** -/
theorem eq_chunks {chunk : Nat} (h : CutTo (fun _ => chunk) zone pieces) (hpos : 0 < chunk) :
    pieces = (List.range (zone.length ⌈/⌉ chunk)).map fun i =>
      (zone.drop (i * chunk)).take chunk := by
  have hcount : pieces.length = zone.length ⌈/⌉ chunk :=
    Nat.le_antisymm (h.length_le_ceilDiv hpos fun _ => Nat.le_refl _)
      (h.ceilDiv_le_length hpos fun _ => Nat.le_refl _)
  refine List.ext_getElem ?_ fun i hi _ => ?_
  · rw [List.length_map, List.length_range, hcount]
  · have hahead : (pieces.take i).flatten.length = i * chunk :=
      Nat.le_antisymm
        (Nat.mul_comm .. ▸ h.length_flatten_take_le (fun _ => Nat.le_refl _) (Nat.le_of_lt hi))
        (Nat.mul_comm .. ▸ h.mul_le_length_flatten_take (fun _ => Nat.le_refl _) hi)
    rw [List.getElem_map, List.getElem_range, h.getElem_eq i hi, hahead]

end CutTo

/-! ## Pieces as they are drawn -/

/-- Pieces of a zone that are as long as the sizes drawn for them from an interval say. -/
structure CutAsDrawn (sizes : Interval) (drawn : Nat → Draw) (zone : Bytes)
    (pieces : List Bytes) : Prop where
  /-- They make up the zone. -/
  whole : pieces.flatten = zone
  /-- Every size is one of those that it is drawn from. -/
  size_mem : ∀ i, sizes.min ≤ (drawn i).size ∧ (drawn i).size ≤ sizes.max
  /-- A piece with another behind it has its size, where a size of nothing counts as one byte. -/
  length_of_lt : ∀ i (hi : i + 1 < pieces.length),
    pieces[i].length = max 1 (drawn i).size.toNat
  /-- The last piece has its size, or what is left if that is less. -/
  length_last : ∀ i (hi : i < pieces.length), i + 1 = pieces.length → pieces[i].length =
    min (max 1 (drawn i).size.toNat) (zone.length - (pieces.take i).flatten.length)
  /-- No piece is empty, and none is longer than the greatest size, or than one byte if that is
  nothing. -/
  length_mem : ∀ piece ∈ pieces, 1 ≤ piece.length ∧ piece.length ≤ max 1 sizes.max.toNat
  /-- A piece with another behind it is no shorter than the least size, nor than one byte. -/
  least_le_length : ∀ i (hi : i + 1 < pieces.length), max 1 sizes.min.toNat ≤ pieces[i].length
  /-- There are no fewer pieces than it takes at their longest, and no more than at their
  shortest. -/
  count_mem : zone.length ⌈/⌉ max 1 sizes.max.toNat ≤ pieces.length ∧
    pieces.length ≤ zone.length ⌈/⌉ max 1 sizes.min.toNat
  /-- Where there is one size only, they are the chunks of the zone of that size. -/
  chunks : ∀ size, sizes = .single size → pieces =
    (List.range (zone.length ⌈/⌉ max 1 size.toNat)).map fun i =>
      (zone.drop (i * max 1 size.toNat)).take (max 1 size.toNat)

/-- **The fragments of a zone are as long as the sizes drawn for them say.** -/
theorem Fragment.cutAsDrawn_cut (sizes delays : Interval) (words : Words) (zone : Bytes) :
    CutAsDrawn sizes (Draw.nth sizes delays words) zone
      ((cut sizes delays words zone).map bytes) := by
  have hcut := cutTo_cut sizes delays words zone
  have hwidth := Draw.width_nth_mem sizes delays words
  generalize (cut sizes delays words zone).map bytes = pieces at hcut ⊢
  have hleast : ∀ k, 0 < max 1 k := fun k => Nat.le_max_left 1 k
  refine ⟨hcut.whole, Draw.mem_size_nth sizes delays words,
    fun i hi => hcut.length_getElem_of_lt hi, fun i hi _ => hcut.length_getElem hi, ?_,
    fun i hi => ?_, ⟨?_, ?_⟩, ?_⟩
  · refine List.forall_mem_iff_getElem.mpr fun i hi => ⟨hcut.length_getElem_pos hi, ?_⟩
    rw [hcut.length_getElem hi]
    exact Nat.le_trans (Nat.min_le_left _ _) (hwidth i).2
  · rw [hcut.length_getElem_of_lt hi]
    exact (hwidth i).1
  · exact hcut.ceilDiv_le_length (hleast _) fun i => (hwidth i).2
  · exact hcut.length_le_ceilDiv (hleast _) fun i => (hwidth i).1
  · rintro size rfl
    -- a width between two equal bounds is that bound
    have hconst : (fun i => (Draw.nth (.single size) delays words i).width) =
        fun _ => max 1 size.toNat :=
      funext fun i => Nat.le_antisymm (hwidth i).2 (hwidth i).1
    rw [hconst] at hcut
    exact hcut.eq_chunks (hleast _)

end SplitHello
