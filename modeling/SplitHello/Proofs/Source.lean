import Mathlib.Logic.Basic
import SplitHello.Buffer

/-!
# Proofs/Source — sources that hold nobody up

A script is **steady** if each of its calls moves something or is interrupted.  A source with such a
script hands out its bytes in chunks of any sizes, with interruptions in between, and ends only once
there are none left.  So whether enough comes depends on how much there is, and on nothing else:

* `Script.Steady.result_fill` — filling succeeds exactly if the source holds enough;
* `Script.Steady.result_fillTo` — so does filling a buffer, counting what the buffer holds already;
* `Script.Steady.fillTo` — a steady source stays one.
-/

namespace SplitHello

/-- Whether a call that ends like this moves something or may be repeated. -/
def Outcome.goesOn : Outcome → Bool
  | moves limit => limit != 0
  | fails failure => failure.isInterrupted

/-- Every call moves something or is interrupted. -/
structure Script.Steady (script : Script) : Prop where
  /-- The first calls do. -/
  outcomes : ∀ outcome ∈ script.outcomes, outcome.goesOn = true
  /-- So do the later ones. -/
  limit : script.limit ≠ some 0

namespace Script

variable {script : Script}

/-- What is left of a steady script is steady. -/
theorem Steady.next (h : script.Steady) : script.next.2.Steady := by
  obtain ⟨_ | ⟨_ | _, later⟩, limit⟩ := script
  · exact h
  · exact ⟨(List.forall_mem_cons.mp h.outcomes).2, h.limit⟩
  · exact ⟨(List.forall_mem_cons.mp h.outcomes).2, h.limit⟩

/-- A call that fails by a steady script is interrupted. -/
theorem Steady.isInterrupted_of_next (h : script.Steady) {failure : Failure}
    (hnext : script.next.1 = .error failure) : failure.isInterrupted = true := by
  obtain ⟨_ | ⟨_ | failed, later⟩, limit⟩ := script
  · cases hnext
  · cases hnext
  · obtain rfl := Except.error.inj hnext
    exact (List.forall_mem_cons.mp h.outcomes).1

/-- A call that does not fail by a steady script moves something. -/
theorem Steady.limit_of_next (h : script.Steady) {limit : Option Nat}
    (hnext : script.next.1 = .ok limit) : limit ≠ some 0 := by
  obtain ⟨_ | ⟨n | _, later⟩, last⟩ := script
  · obtain rfl := Except.ok.inj hnext
    exact h.limit
  · obtain rfl := Except.ok.inj hnext
    have hpos : (n != 0) = true := (List.forall_mem_cons.mp h.outcomes).1
    exact fun hzero => bne_iff_ne.mp hpos (Option.some.inj hzero)
  · cases hnext

end Script

theorem atMost_pos {limit : Option Nat} {n : Nat} (hlimit : limit ≠ some 0) (hn : 0 < n) :
    0 < atMost limit n := by
  cases limit with
  | none => exact hn
  | some k => exact Nat.lt_min.mpr ⟨Nat.pos_of_ne_zero fun hk => hlimit (congrArg some hk), hn⟩

namespace Source

/-- The source hands out these bytes, in chunks of any sizes and with interruptions in between, and
then says that there are none left. -/
structure HandsOut (source : Source) (data : Bytes) : Prop where
  /-- They are the bytes that it holds. -/
  data_eq : source.data = data
  /-- Nothing but their end ends it. -/
  steady : source.script.Steady

/-- A source that hands out all it is asked for hands out its bytes. -/
theorem handsOut_ofBytes (data : Bytes) : (ofBytes data).HandsOut data :=
  ⟨rfl, fun _ h => absurd h List.not_mem_nil, Option.some_ne_none 0 |>.symm⟩

variable {source after : Source} {room : Nat} {journal : Journal}

/-- A call leaves what is left of the script. -/
theorem script_read {result : Except Failure Bytes}
    (h : source.read room = ⟨result, after, journal⟩) :
    after.script = source.script.next.2 := by
  rw [read] at h
  split at h
  · next hnext =>
    cases h
    rw [hnext]
  · next hnext =>
    cases h
    rw [hnext]

/-- A call on a steady source fails only by an interruption. -/
theorem isInterrupted_of_read (hs : source.script.Steady) {failure : Failure}
    (h : source.read room = ⟨.error failure, after, journal⟩) : failure.isInterrupted = true := by
  rw [read] at h
  split at h
  · next hnext =>
    cases h
    exact hs.isInterrupted_of_next (congrArg Prod.fst hnext)
  · cases h

/-- A call on a steady source that hands out nothing where there is room shows its end. -/
theorem data_eq_nil_of_read (hs : source.script.Steady) (hroom : 0 < room)
    (h : source.read room = ⟨.ok [], after, journal⟩) : source.data = [] := by
  rw [read] at h
  split at h
  · cases h
  · next limit _ hnext =>
    have hpos : 0 < atMost limit room :=
      atMost_pos (hs.limit_of_next (congrArg Prod.fst hnext)) hroom
    obtain hzero | hnil := List.take_eq_nil_iff.mp (Except.ok.inj (congrArg Reply.result h))
    · exact absurd hzero (Nat.ne_of_gt hpos)
    · exact hnil

end Source

namespace Script.Steady

variable {source : Source}

/-- A steady source stays steady. -/
theorem fill (hs : source.script.Steady) (need room : Nat) :
    (source.fill need room).state.script.Steady := by
  fun_induction Source.fill source need room with
  | case1 => exact hs
  | case2 source need room _ failure after journal h _ _ ih =>
      exact ih (Source.script_read h ▸ hs.next)
  | case3 source need room _ failure after journal h => exact Source.script_read h ▸ hs.next
  | case4 source need room _ after journal h => exact Source.script_read h ▸ hs.next
  | case5 source need room _ chunk after journal h _ _ ih =>
      exact ih (Source.script_read h ▸ hs.next)

/-- **Filling from a steady source succeeds exactly if the source holds enough**, and otherwise ends
with the source. -/
theorem result_fill (hs : source.script.Steady) {need room : Nat} (hroom : need ≤ room) :
    (source.fill need room).result.2 =
      if need ≤ source.data.length then none else some (.io .sourceEnded) := by
  fun_induction Source.fill source need room with
  | case1 => rw [if_pos (Nat.zero_le _)]
  | case2 source need room _ failure after journal h _ _ ih =>
      rw [Reply.result_after, ih (Source.script_read h ▸ hs.next) hroom, (Source.read_error h).1]
  | case3 source need room _ failure after journal h _ hi =>
      exact absurd (Source.isInterrupted_of_read hs h) hi
  | case4 source need room hneed after journal h =>
      have hempty := Source.data_eq_nil_of_read hs (by omega) h
      rw [hempty, if_neg]
      exact fun hle => hneed (Nat.le_zero.mp hle)
  | case5 source need room _ chunk after journal h _ _ ih =>
      obtain ⟨happend, hfits, -⟩ := Source.read_ok h
      have hlength : chunk.length + after.data.length = source.data.length := by
        rw [← List.length_append, happend]
      rw [Reply.result_after, Reply.result_map]
      refine (ih (Source.script_read h ▸ hs.next) (by omega)).trans (if_congr ?_ rfl rfl)
      omega

/-- A steady source stays steady when a buffer is filled from it. -/
theorem fillTo (hs : source.script.Steady) (buffer : Buffer) (n : Nat) :
    (buffer.fillTo source n).state.2.script.Steady := by
  rw [Buffer.fillTo]
  split
  · exact hs
  · exact hs.fill _ _

/-- **Filling a buffer from a steady source succeeds exactly if both together hold enough**, and
otherwise ends with the source. -/
theorem result_fillTo (hs : source.script.Steady) (buffer : Buffer) (n : Nat) :
    (buffer.fillTo source n).result =
      if n ≤ (buffer.bytes ++ source.data).length then none else some (.io .sourceEnded) := by
  rw [Buffer.fillTo, List.length_append]
  split
  · rw [if_pos (by omega)]
  · have hroom := Buffer.le_grown buffer.capacity n
    refine (hs.result_fill (by omega)).trans (if_congr ?_ rfl rfl)
    omega

end Script.Steady

end SplitHello
