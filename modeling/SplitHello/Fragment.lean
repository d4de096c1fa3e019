import SplitHello.Bytes
import SplitHello.Policy.Sample

/-!
# Fragment — a zone cut into pieces of random size

For each fragment a size is drawn and then the pause that will follow it.  A size of nothing still
takes one byte, and the last fragment takes what is left.  The cut depends on the random words
alone, so it is made before anything is written; each fragment knows the words left after its own
draws.

* `flatMap_cut` — the fragments make up the zone;
* `ne_nil_of_mem_cut` — no fragment is empty.
-/

namespace SplitHello

/-- A piece of a zone. -/
structure Fragment where
  /-- The bytes to write at once. -/
  bytes : Bytes
  /-- The pause after them, in milliseconds. -/
  delay : UInt64
  /-- The random words as they are once the size and the pause are drawn. -/
  words : Words

namespace Fragment

/-- The fragments of a zone. -/
def cut (sizes delays : Interval) (words : Words) (zone : Bytes) : List Fragment :=
  match zone with
  | [] => []
  | first :: rest =>
      let size := sizes.sample words
      let delay := delays.sample size.2
      let more := size.1.toNat - 1
      ⟨first :: rest.take more, delay.1, delay.2⟩ :: cut sizes delays delay.2 (rest.drop more)
  termination_by zone.length
  decreasing_by simp only [List.length_drop, List.length_cons]; omega

/-- **The fragments make up the zone.** -/
theorem flatMap_cut (sizes delays : Interval) (words : Words) (zone : Bytes) :
    (cut sizes delays words zone).flatMap bytes = zone := by
  fun_induction cut sizes delays words zone with
  | case1 => rfl
  | case2 words first rest size delay more ih =>
      rw [List.flatMap_cons, ih, List.cons_append, List.take_append_drop]

/-- **No fragment is empty.** -/
theorem ne_nil_of_mem_cut {sizes delays : Interval} {words : Words} {zone : Bytes} {x : Fragment}
    (h : x ∈ cut sizes delays words zone) : x.bytes ≠ [] := by
  fun_induction cut sizes delays words zone with
  | case1 => cases h
  | case2 words first rest size delay more ih =>
      cases h with
      | head => exact List.cons_ne_nil _ _
      | tail _ h => exact ih h

end Fragment

end SplitHello
