import Mathlib.Data.Nat.Find
import SplitHello.Zones

/-!
# Proofs/Zones — what cutting a buffer around a name finds

A name stands in a buffer in one piece exactly if it occurs at some place of it.

* `around_eq_some_iff` — the cut is at the first place where the name occurs;
* `exists_around_of_occursAt` — it is no later than any place where the name occurs;
* `around_eq_none_iff` — there is no cut exactly if the name is empty or does not stand in the
  buffer in one piece;
* `not_infix_before` — the zone ahead of the name does not hold the name, not even in part of an
  overlap;
* `around_at_first_occurrence` — all of this for one buffer and one name.
-/

namespace SplitHello

variable {name buffer : Bytes} {zones : Zones}

theorem OccursAt.infix {k : Nat} (h : OccursAt name buffer k) : name <:+: buffer :=
  h.isInfix.trans (List.drop_suffix k buffer).isInfix

/-- A name stands in a buffer in one piece exactly if it occurs at some place. -/
theorem infix_iff_occursAt : name <:+: buffer ↔ ∃ k, OccursAt name buffer k := by
  refine ⟨fun h => ?_, fun ⟨k, h⟩ => h.infix⟩
  obtain ⟨before, after, rfl⟩ := h
  refine ⟨before.length, ?_⟩
  rw [OccursAt, List.append_assoc, List.drop_left]
  exact List.prefix_append name after

/-- An occurrence in the front of a buffer is one in the buffer. -/
theorem OccursAt.of_take {k n : Nat} (h : OccursAt name (buffer.take n) k) :
    OccursAt name buffer k := by
  rw [OccursAt, List.drop_take] at h
  exact h.trans (List.take_prefix _ _)

/-- An occurrence behind the front of a buffer is one in what follows the front. -/
theorem occursAt_append_iff {front rest : Bytes} {k : Nat} :
    OccursAt name (front ++ rest) (front.length + k) ↔ OccursAt name rest k := by
  rw [OccursAt, OccursAt, List.drop_length_add_append]

/-- An occurrence that ends inside the front of a buffer is one in the front. -/
theorem OccursAt.of_append {front rest : Bytes} {k : Nat} (h : OccursAt name (front ++ rest) k)
    (hend : k + name.length ≤ front.length) : OccursAt name front k := by
  rw [OccursAt, List.drop_append_of_le_length (Nat.le_trans (Nat.le_add_right _ _) hend)] at h
  refine List.prefix_of_prefix_length_le h (List.prefix_append _ _) ?_
  rw [List.length_drop]
  omega

/-- An occurrence in the front of a buffer is one in the buffer, at the same place. -/
theorem OccursAt.append_right {front : Bytes} {k : Nat} (h : OccursAt name front k)
    (hk : k ≤ front.length) (rest : Bytes) : OccursAt name (front ++ rest) k := by
  rw [OccursAt, List.drop_append_of_le_length hk]
  exact h.trans (List.prefix_append _ _)

/-- An occurrence of something ends inside the buffer. -/
theorem OccursAt.add_length_le {k : Nat} (h : OccursAt name buffer k) (hname : name ≠ []) :
    k + name.length ≤ buffer.length := by
  have hle := h.length_le
  have hpos := List.length_pos_iff.mpr hname
  rw [List.length_drop] at hle
  omega

/-- No place is found exactly if there is none. -/
theorem firstOccurrence_eq_none_iff :
    firstOccurrence name buffer 0 = none ↔ ∀ k ≤ buffer.length, ¬ OccursAt name buffer k := by
  constructor
  · intro h k hk hocc
    -- the least place with an occurrence would have been found
    classical
    have hex : ∃ k, OccursAt name buffer k := ⟨k, hocc⟩
    have hfound : firstOccurrence name buffer 0 = some (Nat.find hex) :=
      firstOccurrence_eq_some_iff.mpr ⟨Nat.find hex, Nat.le_trans (Nat.find_le hocc) hk,
        (Nat.zero_add _).symm, Nat.find_spec hex, fun i hi => Nat.find_min hex hi⟩
    rw [h] at hfound
    cases hfound
  · intro h
    refine Option.eq_none_iff_forall_ne_some.mpr fun found hfound => ?_
    obtain ⟨k, hk, -, hocc, -⟩ := firstOccurrence_eq_some_iff.mp hfound
    exact h k hk hocc

/-- A buffer whose first occurrence of a name is known is cut there. -/
theorem around_append {before after : Bytes} (hne : name ≠ [])
    (hfirst : ∀ i < before.length, ¬ OccursAt name (before ++ name ++ after) i) :
    Zones.around (before ++ name ++ after) name = some ⟨before, name, after⟩ := by
  have hlen : before.length ≤ (before ++ name ++ after).length := by
    rw [List.append_assoc, List.length_append]
    exact Nat.le_add_right _ _
  have hocc : OccursAt name (before ++ name ++ after) before.length := by
    rw [OccursAt, List.append_assoc, List.drop_left]
    exact List.prefix_append _ _
  have hfound : firstOccurrence name (before ++ name ++ after) 0 = some before.length :=
    firstOccurrence_eq_some_iff.mpr ⟨_, hlen, (Nat.zero_add _).symm, hocc, hfirst⟩
  have hbefore : (before ++ name ++ after).take before.length = before := by
    rw [List.append_assoc, List.take_left]
  have hafter : (before ++ name ++ after).drop (before.length + name.length) = after := by
    rw [← List.length_append, List.drop_left]
  rw [Zones.around, if_neg (fun h => hne (List.isEmpty_iff.mp h)), hfound, Option.map_some,
    hbefore, hafter]

/-- **The cut is at the first place where the name occurs.** -/
theorem around_eq_some_iff :
    Zones.around buffer name = some zones ↔
      name ≠ [] ∧ zones.serverName = name ∧ zones.before ++ name ++ zones.after = buffer ∧
        ∀ i < zones.offset, ¬ OccursAt name buffer i := by
  constructor
  · intro h
    obtain ⟨happend, hname⟩ := append_zones h
    rw [hname] at happend
    rw [Zones.around] at h
    split at h
    · cases h
    · next hne =>
      obtain ⟨found, hfound, rfl⟩ := Option.map_eq_some_iff.mp h
      obtain ⟨k, hk, rfl, -, hfirst⟩ := firstOccurrence_eq_some_iff.mp hfound
      refine ⟨fun hnil => hne (List.isEmpty_iff.mpr hnil), hname, happend, fun i hi => ?_⟩
      rw [Zones.offset, List.length_take] at hi
      exact hfirst i (by omega)
  · rintro ⟨hne, hname, rfl, hfirst⟩
    obtain ⟨before, serverName, after⟩ := zones
    obtain rfl : serverName = name := hname
    exact around_append hne hfirst

/-- Where the cut is, the name occurs. -/
theorem occursAt_offset (h : Zones.around buffer name = some zones) :
    OccursAt name buffer zones.offset := by
  obtain ⟨-, -, happend, -⟩ := around_eq_some_iff.mp h
  rw [OccursAt, ← happend, List.append_assoc, Zones.offset, List.drop_left]
  exact List.prefix_append _ _

/-- **There is no cut exactly if the name is empty or does not stand in the buffer in one
piece.** -/
theorem around_eq_none_iff : Zones.around buffer name = none ↔ name = [] ∨ ¬ name <:+: buffer := by
  rw [Zones.around]
  split
  · next h => exact ⟨fun _ => .inl (List.isEmpty_iff.mp h), fun _ => rfl⟩
  · next h =>
    have hne : name ≠ [] := fun hnil => h (List.isEmpty_iff.mpr hnil)
    rw [Option.map_eq_none_iff, firstOccurrence_eq_none_iff, infix_iff_occursAt]
    constructor
    · intro hnone
      refine .inr fun ⟨k, hocc⟩ => hnone k ?_ hocc
      have := hocc.add_length_le hne
      omega
    · rintro (hnil | hnone)
      · exact absurd hnil hne
      · exact fun k _ hocc => hnone ⟨k, hocc⟩

/-- **A buffer is cut no later than at any place where the name occurs**, and there exactly if it
occurs at no earlier one. -/
theorem exists_around_of_occursAt {k : Nat} (hne : name ≠ []) (h : OccursAt name buffer k) :
    ∃ zones, Zones.around buffer name = some zones ∧ zones.serverName = name ∧
      zones.offset ≤ k ∧ (zones.offset = k ↔ ∀ i < k, ¬ OccursAt name buffer i) := by
  obtain ⟨zones, haround⟩ : ∃ zones, Zones.around buffer name = some zones :=
    Option.ne_none_iff_exists'.mp fun hnone =>
      (around_eq_none_iff.mp hnone).elim hne fun hnot => hnot h.infix
  obtain ⟨-, hname, -, hfirst⟩ := around_eq_some_iff.mp haround
  have hle : zones.offset ≤ k := Nat.le_of_not_lt fun hlt => hfirst k hlt h
  refine ⟨zones, haround, hname, hle, fun heq => heq ▸ hfirst, fun hnone => ?_⟩
  exact Nat.le_antisymm hle
    (Nat.le_of_not_lt fun hlt => hnone _ hlt (occursAt_offset haround))

/-- **The zone ahead of the name does not hold the name.** -/
theorem not_infix_before (h : Zones.around buffer name = some zones) :
    ¬ name <:+: zones.before := by
  obtain ⟨hne, -, happend, hfirst⟩ := around_eq_some_iff.mp h
  intro hinfix
  obtain ⟨k, hocc⟩ := infix_iff_occursAt.mp hinfix
  -- an occurrence ahead of the name is one in the buffer, and it starts before the one found
  have hlt : k < zones.offset := by
    have := hocc.add_length_le hne
    have := List.length_pos_iff.mpr hne
    rw [Zones.offset]
    omega
  have hbefore : buffer.take zones.offset = zones.before := by
    rw [← happend, List.append_assoc, Zones.offset, List.take_left]
  refine hfirst k hlt (OccursAt.of_take (n := zones.offset) ?_)
  rwa [hbefore]

/-- **A buffer is cut around the first place where the name occurs in one piece**, and not at all if
there is none or the name is empty.  The zones make up the buffer, and the name occurs at no earlier
place, not even where it would overlap with the one that is found. -/
theorem around_at_first_occurrence (buffer name : Bytes) :
    (Zones.around buffer name = none ↔ name = [] ∨ ¬ name <:+: buffer) ∧
    (name ≠ [] → name <:+: buffer → ∃ zones, Zones.around buffer name = some zones ∧
      zones.before ++ zones.serverName ++ zones.after = buffer ∧ zones.serverName = name ∧
      zones.offset = zones.before.length ∧ OccursAt name buffer zones.offset ∧
      ∀ i < zones.offset, ¬ OccursAt name buffer i) := by
  refine ⟨around_eq_none_iff, fun hne hinfix => ?_⟩
  obtain ⟨k, hocc⟩ := infix_iff_occursAt.mp hinfix
  obtain ⟨zones, haround, -⟩ := exists_around_of_occursAt hne hocc
  obtain ⟨happend, hname⟩ := append_zones haround
  obtain ⟨-, -, -, hfirst⟩ := around_eq_some_iff.mp haround
  exact ⟨zones, haround, happend, hname, rfl, occursAt_offset haround, hfirst⟩

/-- A name that overlaps with itself is found where it first occurs, of two places that share a
byte. -/
theorem around_at_first_occurrence_overlapping :
    ∃ zones, Zones.around [1, 2, 1, 1, 1] [1, 1] = some zones ∧
      zones = ⟨[1, 2], [1, 1], [1]⟩ ∧ OccursAt [1, 1] [1, 2, 1, 1, 1] 2 ∧
      ∀ i < 2, ¬ OccursAt [1, 1] [1, 2, 1, 1, 1] i := by
  obtain ⟨zones, haround, -, -, -, hocc, hfirst⟩ :=
    (around_at_first_occurrence [1, 2, 1, 1, 1] [1, 1]).2 (by decide) ⟨[1, 2], [1], rfl⟩
  obtain rfl : zones = ⟨[1, 2], [1, 1], [1]⟩ := Option.some.inj (haround.symm.trans (by decide))
  exact ⟨_, haround, rfl, hocc, hfirst⟩

end SplitHello
