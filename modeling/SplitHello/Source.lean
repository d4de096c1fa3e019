import SplitHello.Journal
import SplitHello.Script

/-!
# Source — a byte source

A source hands out its bytes in order, as many at a time as its script allows, and then says that
there are none left by handing out none.

`fill` reads until enough bytes have come.  It repeats interrupted calls and gives up at the end of
the source or at any other failure:

* `fill_append` — what came, followed by what is left, is what the source held;
* `le_length_fill` — if nothing went wrong, enough bytes came;
* `length_fill_le` — no more bytes came than there was room for.
-/

namespace SplitHello

/-- A byte source. -/
structure Source where
  /-- The bytes not yet handed out. -/
  data : Bytes
  /-- How the calls end. -/
  script : Script
  deriving DecidableEq

namespace Source

/-- A source that hands out all it is asked for. -/
def ofBytes (data : Bytes) : Source := ⟨data, .free⟩

/-- How many calls and bytes are left to account for. -/
def weight (source : Source) : Nat := source.data.length + source.script.length

/-! ## One call -/

/-- A call that hands out `chunk` and leaves `rest`. -/
def handOut (room : Nat) (chunk rest : Bytes) (script : Script) :
    Reply Source (Except Failure Bytes) :=
  ⟨.ok chunk, ⟨rest, script⟩, [.read room (.ok chunk.length)]⟩

/-- Ask for up to `room` bytes. -/
def read (source : Source) (room : Nat) : Reply Source (Except Failure Bytes) :=
  match source.script.next with
  | (.error failure, script) =>
      ⟨.error failure, ⟨source.data, script⟩, [.read room (.error failure)]⟩
  | (.ok limit, script) =>
      handOut room (source.data.take (atMost limit room)) (source.data.drop (atMost limit room))
        script

/-- What a call does: its chunk and the rest make up the data, and the chunk fits the room. -/
theorem read_ok {source after : Source} {room : Nat} {chunk : Bytes} {journal : Journal}
    (h : source.read room = ⟨.ok chunk, after, journal⟩) :
    chunk ++ after.data = source.data ∧ chunk.length ≤ room ∧
      after.script = source.script.next.2 := by
  unfold read at h
  split at h
  · cases h
  · rename_i limit script hnext
    cases h
    refine ⟨List.take_append_drop _ _, ?_, by rw [hnext]⟩
    exact Nat.le_trans (List.length_take_le _ _) (atMost_le limit room)

/-- A failed call leaves the data as it is and uses up its entry of the script. -/
theorem read_error {source after : Source} {room : Nat} {failure : Failure} {journal : Journal}
    (h : source.read room = ⟨.error failure, after, journal⟩) :
    after.data = source.data ∧ after.script.length < source.script.length := by
  unfold read at h
  split at h
  · rename_i script hnext
    cases h
    refine ⟨rfl, ?_⟩
    have hlt := @Script.length_next_lt source.script failure (by rw [hnext])
    rwa [hnext] at hlt
  · cases h

/-- A call that hands out a byte leaves less to account for. -/
theorem weight_lt_of_read_ok {source after : Source} {room : Nat} {chunk : Bytes}
    {journal : Journal} (h : source.read room = ⟨.ok chunk, after, journal⟩) (hc : chunk ≠ []) :
    after.weight < source.weight := by
  obtain ⟨happend, -, hscript⟩ := read_ok h
  have hpos := List.length_pos_iff.mpr hc
  have hle := Script.length_next_le source.script
  simp only [weight, ← happend, List.length_append, hscript]
  omega

/-- So does a failed call. -/
theorem weight_lt_of_read_error {source after : Source} {room : Nat} {failure : Failure}
    {journal : Journal} (h : source.read room = ⟨.error failure, after, journal⟩) :
    after.weight < source.weight := by
  obtain ⟨hdata, hscript⟩ := read_error h
  simp only [weight, hdata]
  omega

/-! ## Calls until enough has come -/

/-- Read until `need` bytes have come, asking for what still fits into `room`.  The answer is what
came, also if it is not enough, and what went wrong. -/
def fill (source : Source) (need room : Nat) : Reply Source (Bytes × Option Failure) :=
  if need = 0 then ⟨([], none), source, []⟩
  else
    match h : source.read room with
    | ⟨.error failure, after, journal⟩ =>
        have := weight_lt_of_read_error h
        if failure.isInterrupted then (fill after need room).after journal
        else ⟨([], some failure), after, journal⟩
    | ⟨.ok chunk, after, journal⟩ =>
        if hc : chunk = [] then ⟨([], some (.io .sourceEnded)), after, journal⟩
        else
          have := weight_lt_of_read_ok h hc
          ((fill after (need - chunk.length) (room - chunk.length)).map fun got =>
            (chunk ++ got.1, got.2)).after journal
  termination_by source.weight

section

variable {source after : Source} {need room : Nat} {journal : Journal}

/-- Filling behind a call that failed. -/
theorem fill_of_error {failure : Failure} (hneed : need ≠ 0)
    (h : source.read room = ⟨.error failure, after, journal⟩) :
    source.fill need room =
      if failure.isInterrupted then (after.fill need room).after journal
      else ⟨([], some failure), after, journal⟩ := by
  rw [fill, if_neg hneed]
  split
  · next hread =>
    cases h.symm.trans hread
    rfl
  · next hread => cases h.symm.trans hread

/-- Filling behind a call that handed out nothing. -/
theorem fill_of_nil (hneed : need ≠ 0) (h : source.read room = ⟨.ok [], after, journal⟩) :
    source.fill need room = ⟨([], some (.io .sourceEnded)), after, journal⟩ := by
  rw [fill, if_neg hneed]
  split
  · next hread => cases h.symm.trans hread
  · next hread =>
    cases h.symm.trans hread
    rw [dif_pos rfl]

/-- Filling behind a call that handed out something. -/
theorem fill_of_ok {chunk : Bytes} (hneed : need ≠ 0) (hne : chunk ≠ [])
    (h : source.read room = ⟨.ok chunk, after, journal⟩) :
    source.fill need room =
      ((after.fill (need - chunk.length) (room - chunk.length)).map fun got =>
        (chunk ++ got.1, got.2)).after journal := by
  rw [fill, if_neg hneed]
  split
  · next hread => cases h.symm.trans hread
  · next hread =>
    cases h.symm.trans hread
    rw [dif_neg hne]

end

/-- **What came, followed by what is left, is what the source held.** -/
theorem fill_append (source : Source) (need room : Nat) :
    (source.fill need room).result.1 ++ (source.fill need room).state.data = source.data := by
  fun_induction fill source need room with
  | case1 => rfl
  | case2 source need room hn failure after journal h _ hi ih =>
      exact ih.trans (read_error h).1
  | case3 source need room hn failure after journal h _ hi => exact (read_error h).1
  | case4 source need room hn after journal h => exact (read_ok h).1
  | case5 source need room hn chunk after journal h hc _ ih =>
      rw [Reply.result_after, Reply.result_map, Reply.state_after, Reply.state_map,
        List.append_assoc, ih]
      exact (read_ok h).1

/-- **If nothing went wrong, enough bytes came.** -/
theorem le_length_fill (source : Source) (need room : Nat)
    (h : (source.fill need room).result.2 = none) :
    need ≤ (source.fill need room).result.1.length := by
  fun_induction fill source need room with
  | case1 => simp
  | case2 source need room hn failure after journal hr _ hi ih => exact ih h
  | case3 source need room hn failure after journal hr _ hi => cases h
  | case4 source need room hn after journal hr => cases h
  | case5 source need room hn chunk after journal hr hc _ ih =>
      have := ih h
      rw [Reply.result_after, Reply.result_map, List.length_append]
      omega

/-- **No more bytes came than there was room for.** -/
theorem length_fill_le (source : Source) (need room : Nat) :
    (source.fill need room).result.1.length ≤ room := by
  fun_induction fill source need room with
  | case1 => simp
  | case2 source need room hn failure after journal hr _ hi ih => exact ih
  | case3 source need room hn failure after journal hr _ hi => simp
  | case4 source need room hn after journal hr => simp
  | case5 source need room hn chunk after journal hr hc _ ih =>
      have := (read_ok hr).2.1
      rw [Reply.result_after, Reply.result_map, List.length_append]
      omega

end Source

end SplitHello
