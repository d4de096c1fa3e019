import SplitHello.Fragment
import SplitHello.Proofs.Policy.Sample

/-!
# Proofs/Fragment/Size — how long the fragments of a zone are

* `length_le_of_mem_cut` — no fragment is longer than the greatest size, where a size of nothing
  counts as one byte;
* `infix_of_mem_cut` — a fragment stands in the zone in one piece.
-/

namespace SplitHello.Fragment

variable {sizes delays : Interval} {words : Words} {zone : Bytes} {x : Fragment}

/-- **No fragment is longer than the greatest size**, or than one byte if that is nothing. -/
theorem length_le_of_mem_cut (h : x ∈ cut sizes delays words zone) :
    x.bytes.length ≤ max 1 sizes.max.toNat := by
  fun_induction cut sizes delays words zone with
  | case1 => cases h
  | case2 words first rest size delay more ih =>
      rcases List.mem_cons.mp h with rfl | h
      · have hsize : size.1.toNat ≤ sizes.max.toNat := sizes.sample_le_max words
        have htake : (rest.take more).length ≤ more := List.length_take_le _ _
        have hmore : more + 1 ≤ max 1 sizes.max.toNat := by
          dsimp only [more]
          omega
        rw [List.length_cons]
        exact Nat.le_trans (Nat.succ_le_succ htake) hmore
      · exact ih h

/-- **A fragment stands in the zone in one piece.** -/
theorem infix_of_mem_cut (h : x ∈ cut sizes delays words zone) : x.bytes <:+: zone := by
  rw [← flatMap_cut sizes delays words zone]
  obtain ⟨before, after, hsplit⟩ := List.append_of_mem h
  rw [hsplit, List.flatMap_append, List.flatMap_cons, ← List.append_assoc]
  exact ⟨_, _, rfl⟩

end SplitHello.Fragment
