import SplitHello.Bytes

/-!
# Zones — a buffer cut around a server name

The cut is at the first place where the name occurs in one piece, if there is one.

* `firstOccurrence_eq_some_iff` — the place that is found is one where the name occurs, and it
  occurs at no earlier place;
* `append_zones` — the three zones make up the buffer.
-/

namespace SplitHello

/-- A buffer cut around a server name. -/
structure Zones where
  /-- What is ahead of the name. -/
  before : Bytes
  /-- The name. -/
  serverName : Bytes
  /-- What comes after the name. -/
  after : Bytes
  deriving DecidableEq

/-- Where the name starts. -/
def Zones.offset (zones : Zones) : Nat := zones.before.length

/-- `name` occurs in `buffer` at place `k`. -/
def OccursAt (name buffer : Bytes) (k : Nat) : Prop := name <+: buffer.drop k

/-- The first place, counted from `place`, where `name` occurs in `buffer`. -/
def firstOccurrence (name : Bytes) (buffer : Bytes) (place : Nat) : Option Nat :=
  if name.isPrefixOf buffer then some place
  else
    match buffer with
    | [] => none
    | _ :: rest => firstOccurrence name rest (place + 1)

/-- A buffer cut around the first occurrence of a name, which may not be empty. -/
def Zones.around (buffer name : Bytes) : Option Zones :=
  if name.isEmpty then none
  else
    (firstOccurrence name buffer 0).map fun offset =>
      ⟨buffer.take offset, name, buffer.drop (offset + name.length)⟩

/-- **The place that is found is the first where the name occurs.** -/
theorem firstOccurrence_eq_some_iff {name buffer : Bytes} {place found : Nat} :
    firstOccurrence name buffer place = some found ↔
      ∃ k ≤ buffer.length, found = place + k ∧ OccursAt name buffer k ∧
        ∀ i < k, ¬ OccursAt name buffer i := by
  fun_induction firstOccurrence name buffer place with
  | case1 buffer place h =>
      have hp : OccursAt name buffer 0 := List.isPrefixOf_iff_prefix.mp h
      constructor
      · intro hf
        obtain rfl := Option.some.inj hf
        exact ⟨0, Nat.zero_le _, rfl, hp, fun i hi => absurd hi (Nat.not_lt_zero i)⟩
      · rintro ⟨k, -, rfl, -, hfirst⟩
        cases k with
        | zero => rfl
        | succ k => exact absurd hp (hfirst 0 (Nat.succ_pos k))
  | case2 place h =>
      have hp : ¬ OccursAt name [] 0 := fun hp => h (List.isPrefixOf_iff_prefix.mpr hp)
      refine ⟨fun hf => (by cases hf), ?_⟩
      rintro ⟨k, hk, -, hocc, -⟩
      obtain rfl : k = 0 := Nat.le_zero.mp hk
      exact absurd hocc hp
  | case3 place b rest h ih =>
      have hp : ¬ OccursAt name (b :: rest) 0 := fun hp => h (List.isPrefixOf_iff_prefix.mpr hp)
      rw [ih]
      constructor
      · rintro ⟨k, hk, rfl, hocc, hfirst⟩
        refine ⟨k + 1, Nat.succ_le_succ hk, by omega, hocc, fun i hi => ?_⟩
        cases i with
        | zero => exact hp
        | succ i => exact hfirst i (by omega)
      · rintro ⟨k, hk, rfl, hocc, hfirst⟩
        cases k with
        | zero => exact absurd hocc hp
        | succ k =>
            exact ⟨k, Nat.le_of_succ_le_succ hk, by omega, hocc,
              fun i hi => hfirst (i + 1) (Nat.succ_lt_succ hi)⟩

/-- **The three zones make up the buffer.** -/
theorem append_zones {buffer name : Bytes} {zones : Zones}
    (h : Zones.around buffer name = some zones) :
    zones.before ++ zones.serverName ++ zones.after = buffer ∧ zones.serverName = name := by
  unfold Zones.around at h
  split at h
  · cases h
  · obtain ⟨offset, hfound, rfl⟩ := Option.map_eq_some_iff.mp h
    obtain ⟨k, -, rfl, ⟨rest, hrest⟩, -⟩ := firstOccurrence_eq_some_iff.mp hfound
    have hafter : buffer.drop (0 + k + name.length) = rest := by
      rw [Nat.zero_add, ← List.drop_drop, ← hrest, List.drop_left]
    refine ⟨?_, rfl⟩
    dsimp only
    rw [hafter, List.append_assoc, hrest, Nat.zero_add, List.take_append_drop]

end SplitHello
