import Mathlib.Control.Monad.Basic
import SplitHello.Buffer

/-!
# Proofs/Journal/Reads — what is asked of a source, and when

`EachRead P` says that each read call of a journal is made as `P` allows, which sees how many bytes
the calls before it have handed out and for how many it asks.  It is read off a journal part by
part, each part starting where the one before it has left the source.

* `eachRead_append_iff` — the reads of two journals, one after the other;
* `Source.eachRead_fill`, `Buffer.eachRead_fillTo` — filling asks only while too little has come,
  and for no less than is missing;
* `Source.exists_read_of_mem_fill`, `Buffer.exists_read_of_mem_fillTo` — it does nothing but ask,
  and never for more than there is room for.
-/

namespace SplitHello

deriving instance DecidableEq for Event

/-- How many bytes a call hands out. -/
def Event.handedOut : Event → Nat
  | .read _ (.ok n) => n
  | _ => 0

namespace Journal

/-- How many bytes the calls of a journal hand out. -/
def handedOut : Journal → Nat
  | [] => 0
  | e :: later => e.handedOut + handedOut later

/-- Each read call is made as `P` allows, which sees how many bytes the calls before it have handed
out and for how many it asks. -/
def EachRead (P : Nat → Nat → Prop) (journal : Journal) : Prop :=
  ∀ (before : Journal) (room : Nat) (got : Except Failure Nat) (later : Journal),
    journal = before ++ .read room got :: later → P before.handedOut room

variable {P Q : Nat → Nat → Prop} {first second later journal : Journal}

@[simp] theorem handedOut_append : handedOut (first ++ second) =
    handedOut first + handedOut second := by
  induction first with
  | nil => exact (Nat.zero_add _).symm
  | cons e first ih => rw [List.cons_append, handedOut, ih, handedOut, Nat.add_assoc]

theorem EachRead.mono (h : journal.EachRead P) (hmono : ∀ n room, P n room → Q n room) :
    journal.EachRead Q :=
  fun before room got later hjournal => hmono _ _ (h before room got later hjournal)

theorem eachRead_nil : EachRead P [] := by
  intro before room got later h
  exact absurd h.symm (List.append_ne_nil_of_right_ne_nil _ (List.cons_ne_nil _ _))

/-- A call is made as it may be, and those behind it are made where it has left the source. -/
theorem eachRead_cons_iff {e : Event} :
    EachRead P (e :: later) ↔ (∀ room got, e = .read room got → P 0 room) ∧
      EachRead (fun n => P (e.handedOut + n)) later := by
  constructor
  · intro h
    refine ⟨?_, fun before room got behind hlater => ?_⟩
    · rintro room got rfl
      exact h [] room got later rfl
    · exact h (e :: before) room got behind (congrArg (e :: ·) hlater)
  · rintro ⟨hfirst, hlater⟩ before room got behind h
    obtain _ | ⟨e', before⟩ := before
    · obtain ⟨rfl, -⟩ := List.cons.inj h
      exact hfirst room got rfl
    · obtain ⟨rfl, rfl⟩ := List.cons.inj h
      exact hlater before room got behind rfl

/-- **The reads of one journal are made first, and those of the other where it has left the
source.** -/
theorem eachRead_append_iff :
    EachRead P (first ++ second) ↔
      first.EachRead P ∧ second.EachRead fun n => P (first.handedOut + n) := by
  induction first generalizing P with
  | nil =>
      simp only [List.nil_append, handedOut, Nat.zero_add]
      exact (and_iff_right eachRead_nil).symm
  | cons e first ih =>
      rw [List.cons_append, eachRead_cons_iff, ih, eachRead_cons_iff, and_assoc, handedOut]
      simp only [Nat.add_assoc]

/-- A read call is made as it may be, and those behind it are made where it has left the source. -/
theorem eachRead_read_iff {room : Nat} {got : Except Failure Nat} :
    EachRead P (.read room got :: later) ↔
      P 0 room ∧ later.EachRead fun n => P ((Event.read room got).handedOut + n) := by
  rw [eachRead_cons_iff]
  refine and_congr_left' ⟨fun h => h room got rfl, ?_⟩
  rintro h _ _ ⟨⟩
  exact h

theorem eachRead_note_iff {n : Note} : EachRead P (.note n :: later) ↔ later.EachRead P := by
  rw [eachRead_cons_iff]
  simp only [Event.handedOut, Nat.zero_add]
  exact and_iff_right fun room got h => by cases h

theorem handedOut_note {n : Note} : handedOut (.note n :: later) = later.handedOut :=
  Nat.zero_add _

theorem eachRead_map_note (notes : List Note) : EachRead P (notes.map .note) := by
  induction notes with
  | nil => exact eachRead_nil
  | cons n notes ih => exact eachRead_note_iff.mpr ih

end Journal

/-! ## Filling -/

namespace Source

variable {source after : Source} {need room : Nat} {journal : Journal}

/-- A call is one event, which says for how much it asked and how much came. -/
theorem journal_read {result : Except Failure Bytes}
    (h : source.read room = ⟨result, after, journal⟩) :
    journal = [.read room (result.map List.length)] := by
  rw [read] at h
  split at h
  · cases h
    rfl
  · cases h
    rfl

/-- What came is what the calls handed out. -/
theorem handedOut_fill (source : Source) (need room : Nat) :
    (source.fill need room).journal.handedOut = (source.fill need room).result.1.length := by
  fun_induction fill source need room with
  | case1 => rfl
  | case2 source need room _ failure after journal h _ _ ih =>
      obtain rfl := journal_read h
      exact (Nat.zero_add _).trans ih
  | case3 source need room _ failure after journal h =>
      obtain rfl := journal_read h
      rfl
  | case4 source need room _ after journal h =>
      obtain rfl := journal_read h
      rfl
  | case5 source need room _ chunk after journal h _ _ ih =>
      obtain rfl := journal_read h
      rw [Reply.result_after, Reply.result_map, List.length_append, ← ih]
      rfl

/-- **Filling asks only while too little has come**, and for all that fits. -/
theorem eachRead_fill (source : Source) (need room : Nat) :
    (source.fill need room).journal.EachRead fun n asked =>
      n < need ∧ n ≤ source.data.length ∧ asked = room - n := by
  have hfirst : ∀ {need room : Nat} {source : Source}, need ≠ 0 →
      0 < need ∧ 0 ≤ source.data.length ∧ room = room - 0 := fun hneed =>
    ⟨Nat.pos_of_ne_zero hneed, Nat.zero_le _, rfl⟩
  fun_induction fill source need room with
  | case1 => exact Journal.eachRead_nil
  | case2 source need room hneed failure after journal h _ _ ih =>
      obtain rfl := journal_read h
      refine Journal.eachRead_read_iff.mpr ⟨hfirst hneed, ih.mono fun n asked hasked => ?_⟩
      rw [(read_error h).1] at hasked
      simpa only [Event.handedOut, Except.map, Nat.zero_add] using hasked
  | case3 source need room hneed failure after journal h =>
      obtain rfl := journal_read h
      exact Journal.eachRead_read_iff.mpr ⟨hfirst hneed, Journal.eachRead_nil⟩
  | case4 source need room hneed after journal h =>
      obtain rfl := journal_read h
      exact Journal.eachRead_read_iff.mpr ⟨hfirst hneed, Journal.eachRead_nil⟩
  | case5 source need room hneed chunk after journal h _ _ ih =>
      obtain rfl := journal_read h
      obtain ⟨hdata, -, -⟩ := read_ok h
      refine Journal.eachRead_read_iff.mpr ⟨hfirst hneed, ih.mono ?_⟩
      rintro n asked ⟨hlt, hle, rfl⟩
      rw [← hdata, List.length_append]
      dsimp only [Event.handedOut, Except.map]
      omega

/-- **Filling does nothing but ask**, for no more than there is room for. -/
theorem exists_read_of_mem_fill {e : Event} (h : e ∈ (source.fill need room).journal) :
    ∃ asked got, e = .read asked got ∧ asked ≤ room := by
  fun_induction fill source need room with
  | case1 => exact absurd h List.not_mem_nil
  | case2 source need room _ failure after journal hread _ _ ih =>
      obtain rfl := journal_read hread
      exact (List.mem_cons.mp h).elim (fun he => ⟨_, _, he, Nat.le_refl _⟩) ih
  | case3 source need room _ failure after journal hread =>
      obtain rfl := journal_read hread
      exact ⟨_, _, List.mem_singleton.mp h, Nat.le_refl _⟩
  | case4 source need room _ after journal hread =>
      obtain rfl := journal_read hread
      exact ⟨_, _, List.mem_singleton.mp h, Nat.le_refl _⟩
  | case5 source need room _ chunk after journal hread _ _ ih =>
      obtain rfl := journal_read hread
      refine (List.mem_cons.mp h).elim (fun he => ⟨_, _, he, Nat.le_refl _⟩) fun hlater => ?_
      obtain ⟨asked, got, he, hle⟩ := ih hlater
      exact ⟨asked, got, he, Nat.le_trans hle (Nat.sub_le _ _)⟩

end Source

namespace Buffer

variable {buffer filled : Buffer} {source after : Source} {n : Nat} {failed : Option Failure}
  {journal : Journal}

/-- Behind what was in the buffer stands what the calls handed out, and the rest is left. -/
theorem bytes_of_fillTo (h : buffer.fillTo source n = ⟨failed, (filled, after), journal⟩) :
    filled.bytes = buffer.bytes ++ source.data.take journal.handedOut ∧
      after.data = source.data.drop journal.handedOut := by
  rw [fillTo] at h
  split at h
  · cases h
    exact ⟨(List.append_nil _).symm, rfl⟩
  · cases h
    have hlength := source.handedOut_fill (n - buffer.bytes.length)
      (grown buffer.capacity n - buffer.bytes.length)
    have happend := source.fill_append (n - buffer.bytes.length)
      (grown buffer.capacity n - buffer.bytes.length)
    refine ⟨congrArg (buffer.bytes ++ ·) ?_, ?_⟩
    · rw [hlength, ← happend, List.take_left]
    · rw [hlength, ← happend, List.drop_left]

/-- **Filling a buffer asks only while it holds too little**, and for no less than is missing. -/
theorem eachRead_fillTo (buffer : Buffer) (source : Source) (n : Nat) :
    (buffer.fillTo source n).journal.EachRead fun k asked =>
      (buffer.bytes ++ source.data.take k).length < n ∧
        n ≤ (buffer.bytes ++ source.data.take k).length + asked := by
  rw [fillTo]
  split
  · exact Journal.eachRead_nil
  · have hroom := le_grown buffer.capacity n
    refine (source.eachRead_fill _ _).mono ?_
    rintro k asked ⟨hlt, hle, rfl⟩
    rw [List.length_append, List.length_take_of_le hle]
    omega

/-- **Filling a buffer does nothing but ask**, for no more than the room that it is grown to. -/
theorem exists_read_of_mem_fillTo {e : Event} (h : e ∈ (buffer.fillTo source n).journal) :
    ∃ asked got, e = .read asked got ∧ asked ≤ grown buffer.capacity n := by
  rw [fillTo] at h
  split at h
  · exact absurd h List.not_mem_nil
  · obtain ⟨asked, got, he, hle⟩ := Source.exists_read_of_mem_fill h
    exact ⟨asked, got, he, Nat.le_trans hle (Nat.sub_le _ _)⟩

end Buffer

end SplitHello
