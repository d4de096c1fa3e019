import SplitHello.Proofs.Buffer.Room
import SplitHello.Proofs.Journal.Reads

/-!
# Proofs/Buffer/Filling — what filling a buffer asks for, keeps and reports

Filling makes calls on a source, one behind the other, until an answer ends it or the content is
long enough.  All that the answers hand over is kept behind what was there, whatever ends it.  An
interruption hands over nothing and ends nothing.

* `Source.exists_fetched` — the calls that filling makes, and what it makes of their answers;
* `Source.fill_undisturbed` — without the interruptions it comes to the same;
* `fillTo_keeps_all` — a buffer holds what it held, and behind it what the source handed over.
-/

namespace SplitHello

/-- What an answer of a source hands over. -/
def handedOver : Except Failure Bytes → Bytes
  | .ok chunk => chunk
  | .error _ => []

/-- Why no call is made behind an answer, if none is: the source has ended, or it failed and was not
interrupted. -/
def endOf : Except Failure Bytes → Option Failure
  | .ok chunk => if chunk = [] then some (.io .sourceEnded) else none
  | .error failure => if failure.isInterrupted then none else some failure

/-- An answer that ends the calls hands over nothing. -/
theorem handedOver_of_endOf {answer : Except Failure Bytes} {failure : Failure}
    (h : endOf answer = some failure) : handedOver answer = [] := by
  cases answer with
  | ok chunk =>
      rw [endOf] at h
      split at h
      · next hnil => exact hnil
      · cases h
  | error _ => rfl

namespace Source

variable {source after : Source} {need room : Nat} {rooms : List Nat} {journal : Journal}
  {answer : Except Failure Bytes} {failure : Failure}
  {reply : Reply Source (Bytes × Option Failure)}

/-! ## The calls that filling makes -/

/-- Calls on a source, one behind the other, each for so many bytes. -/
abbrev calls (source : Source) (rooms : List Nat) : Reply Source (List (Except Failure Bytes)) :=
  Reply.each read source rooms

/-- What filling makes of calls for so many bytes. -/
structure Fetched (source : Source) (need room : Nat) (rooms : List Nat)
    (reply : Reply Source (Bytes × Option Failure)) : Prop where
  /-- Nothing happens but these calls. -/
  journal : reply.journal = (source.calls rooms).journal
  /-- The source is left as they leave it. -/
  state : reply.state = (source.calls rooms).state
  /-- What came is what their answers hand over. -/
  came : reply.result.1 = (source.calls rooms).result.flatMap handedOver
  /-- The first answer that ends the calls says what went wrong. -/
  failed : reply.result.2 = (source.calls rooms).result.findSome? endOf
  /-- Each call is made while too little has come, for all that still fits, and behind no answer
  that ends the calls. -/
  made : ∀ k asked, rooms[k]? = some asked →
    let answers := (source.calls rooms).result.take k
    (answers.flatMap handedOver).length < need ∧
      asked = room - (answers.flatMap handedOver).length ∧ answers.findSome? endOf = none

/-- A call that ends the calls is the only one. -/
theorem fetched_of_end (hneed : need ≠ 0) (h : source.read room = ⟨answer, after, journal⟩)
    (hend : endOf answer = some failure) :
    Fetched source need room [room] ⟨([], some failure), after, journal⟩ := by
  have hcalls : source.calls [room] = ⟨[answer], after, journal⟩ := by
    rw [calls, Reply.each, h, Reply.each, Reply.after, Reply.map, List.append_nil]
  refine ⟨by rw [hcalls], by rw [hcalls], ?_, ?_, ?_⟩
  · rw [hcalls, List.flatMap_singleton, handedOver_of_endOf hend]
  · rw [hcalls, List.findSome?_singleton, hend]
  · rintro (_ | k) asked hasked
    · obtain rfl := Option.some.inj hasked
      exact ⟨Nat.pos_of_ne_zero hneed, rfl, rfl⟩
    · cases hasked

/-- Behind a call that does not end the calls, those are made that are made for what is missing. -/
theorem Fetched.behind (hneed : need ≠ 0) (h : source.read room = ⟨answer, after, journal⟩)
    (hend : endOf answer = none)
    (hlater : Fetched after (need - (handedOver answer).length) (room - (handedOver answer).length)
      rooms reply) :
    Fetched source need room (room :: rooms)
      ((reply.map fun got => (handedOver answer ++ got.1, got.2)).after journal) := by
  have hcalls : source.calls (room :: rooms) =
      ((after.calls rooms).map (answer :: ·)).after journal := by
    rw [calls, Reply.each, h]
  refine ⟨?_, ?_, ?_, ?_, ?_⟩
  · rw [hcalls, Reply.journal_after, Reply.journal_after, Reply.journal_map, Reply.journal_map,
      hlater.journal]
  · rw [hcalls]
    exact hlater.state
  · rw [hcalls, Reply.result_after, Reply.result_after, Reply.result_map, Reply.result_map,
      List.flatMap_cons, hlater.came]
  · rw [hcalls, Reply.result_after, Reply.result_after, Reply.result_map, Reply.result_map,
      List.findSome?_cons, hend]
    exact hlater.failed
  · rintro (_ | k) asked hasked
    · obtain rfl := Option.some.inj hasked
      exact ⟨Nat.pos_of_ne_zero hneed, rfl, rfl⟩
    · obtain ⟨hshort, hroom, hnone⟩ := hlater.made k asked hasked
      rw [hcalls]
      dsimp only [Reply.result_after, Reply.result_map]
      rw [List.take_succ_cons, List.flatMap_cons, List.findSome?_cons, hend, List.length_append]
      exact ⟨by omega, by omega, hnone⟩

/-- **Filling makes calls until an answer ends them or enough has come**, and keeps what they hand
over. -/
theorem exists_fetched (source : Source) (need room : Nat) :
    ∃ rooms, Fetched source need room rooms (source.fill need room) := by
  fun_induction fill source need room with
  | case1 source room =>
      exact ⟨[], rfl, rfl, rfl, rfl, fun k asked h => by cases h⟩
  | case2 source need room hneed failure after journal h _ hi ih =>
      obtain ⟨rooms, hrooms⟩ := ih
      exact ⟨room :: rooms, Fetched.behind hneed h (if_pos hi) hrooms⟩
  | case3 source need room hneed failure after journal h _ hi =>
      exact ⟨[room], fetched_of_end hneed h (if_neg hi)⟩
  | case4 source need room hneed after journal h =>
      exact ⟨[room], fetched_of_end hneed h rfl⟩
  | case5 source need room hneed chunk after journal h hne _ ih =>
      obtain ⟨rooms, hrooms⟩ := ih
      exact ⟨room :: rooms, Fetched.behind hneed h (if_neg hne) hrooms⟩

/-- If something went wrong, too little came. -/
theorem length_fill_lt (h : (source.fill need room).result.2 = some failure) :
    (source.fill need room).result.1.length < need := by
  fun_induction fill source need room with
  | case1 => cases h
  | case2 source need room _ _ after journal _ _ _ ih => exact ih h
  | case3 source need room hneed => exact Nat.pos_of_ne_zero hneed
  | case4 source need room hneed => exact Nat.pos_of_ne_zero hneed
  | case5 source need room _ chunk after journal _ _ _ ih =>
      have := ih h
      rw [Reply.result_after, Reply.result_map, List.length_append]
      omega

/-- **Enough has come exactly if nothing went wrong.** -/
theorem failed_fill_eq_none_iff :
    (source.fill need room).result.2 = none ↔ need ≤ (source.fill need room).result.1.length := by
  refine ⟨le_length_fill source need room, fun hle => ?_⟩
  cases hfailed : (source.fill need room).result.2 with
  | none => rfl
  | some failure => exact absurd (length_fill_lt hfailed) (Nat.not_lt_of_le hle)

/-- No call is made exactly if nothing is missing. -/
theorem Fetched.eq_nil_iff (h : Fetched source need room rooms (source.fill need room)) :
    rooms = [] ↔ need = 0 := by
  constructor
  · rintro rfl
    have hcame := h.came
    have hle := failed_fill_eq_none_iff.mp h.failed
    rw [hcame] at hle
    exact Nat.le_zero.mp hle
  · rintro rfl
    cases rooms with
    | nil => rfl
    | cons asked _ => exact absurd (h.made 0 asked rfl).1 (Nat.not_lt_zero _)

end Source

/-! ## Interruptions -/

/-- Whether a call that ends like this is interrupted. -/
def Outcome.isInterruption : Outcome → Bool
  | moves _ => false
  | fails failure => failure.isInterrupted

@[simp] theorem Outcome.isInterruption_fails (failure : Failure) :
    (fails failure).isInterruption = failure.isInterrupted := rfl

/-- Whether an event is a call on a source that was interrupted. -/
def Event.isInterruption : Event → Bool
  | .read _ (.error failure) => failure.isInterrupted
  | _ => false

@[simp] theorem Event.isInterruption_read_ok (room n : Nat) :
    (read room (.ok n)).isInterruption = false := rfl

@[simp] theorem Event.isInterruption_read_error (room : Nat) (failure : Failure) :
    (read room (.error failure)).isInterruption = failure.isInterrupted := rfl

/-- The script without its interruptions. -/
def Script.undisturbed (script : Script) : Script :=
  { script with outcomes := script.outcomes.filter (!·.isInterruption) }

namespace Source

variable {source after : Source} {need room : Nat} {journal : Journal} {failure : Failure}

/-- The source with the interruptions taken out of its script. -/
def undisturbed (source : Source) : Source := ⟨source.data, source.script.undisturbed⟩

/-- A call that was interrupted leaves nothing else that will happen. -/
theorem undisturbed_of_interrupted (h : source.read room = ⟨.error failure, after, journal⟩)
    (hi : failure.isInterrupted = true) : source.undisturbed = after.undisturbed := by
  obtain ⟨data, ⟨_ | ⟨_ | failure', later⟩, limit⟩⟩ := source
  · cases h
  · cases h
  · cases h
    rw [undisturbed, Script.undisturbed, List.filter_cons_of_neg (by simpa using hi)]
    rfl

/-- Any other call is made on the undisturbed source alike. -/
theorem read_undisturbed {answer : Except Failure Bytes}
    (h : source.read room = ⟨answer, after, journal⟩)
    (hi : ∀ failure, answer = .error failure → ¬ failure.isInterrupted = true) :
    source.undisturbed.read room = ⟨answer, after.undisturbed, journal⟩ := by
  obtain ⟨data, ⟨_ | ⟨limit' | failure, later⟩, limit⟩⟩ := source
  · cases h
    rfl
  · cases h
    rfl
  · cases h
    have hfilter : (Outcome.fails failure :: later).filter (!·.isInterruption) =
        .fails failure :: later.filter (!·.isInterruption) :=
      List.filter_cons_of_pos (by simpa using hi failure rfl)
    rw [undisturbed, Script.undisturbed, hfilter]
    rfl

/-- **Without the interruptions, filling comes to the same**, in as many calls fewer. -/
theorem fill_undisturbed (source : Source) (need room : Nat) :
    source.undisturbed.fill need room =
      ⟨(source.fill need room).result, (source.fill need room).state.undisturbed,
        (source.fill need room).journal.filter (!·.isInterruption)⟩ := by
  fun_induction fill source need room with
  | case1 source room =>
      rw [fill, if_pos rfl]
      rfl
  | case2 source need room hneed failure after journal h _ hi ih =>
      obtain rfl := journal_read h
      rw [undisturbed_of_interrupted h hi, ih, Reply.journal_after, List.singleton_append,
        List.filter_cons_of_neg (by simpa [Except.map] using hi)]
      rfl
  | case3 source need room hneed failure after journal h _ hi =>
      obtain rfl := journal_read h
      have hread := read_undisturbed h fun failure' h => Except.error.inj h ▸ hi
      rw [fill_of_error hneed hread, if_neg hi,
        List.filter_cons_of_pos (by simpa [Except.map] using hi)]
      rfl
  | case4 source need room hneed after journal h =>
      obtain rfl := journal_read h
      have hread := read_undisturbed h fun _ h => by cases h
      rw [fill_of_nil hneed hread]
      rfl
  | case5 source need room hneed chunk after journal h hne _ ih =>
      obtain rfl := journal_read h
      have hread := read_undisturbed h fun _ h => by cases h
      rw [fill_of_ok hneed hne hread, ih]
      rfl

end Source

/-! ## Filling a buffer -/

namespace Buffer

variable {buffer : Buffer} {source : Source} {n : Nat}

/-- What filling a buffer makes of calls for so many bytes. -/
structure FilledBy (buffer : Buffer) (source : Source) (n : Nat) (rooms : List Nat)
    (reply : Reply (Buffer × Source) (Option Failure)) : Prop where
  /-- Nothing happens but these calls. -/
  journal : reply.journal = (source.calls rooms).journal
  /-- The source is left as they leave it. -/
  left : reply.state.2 = (source.calls rooms).state
  /-- There are none exactly if the content is long enough. -/
  rooms_eq_nil_iff : rooms = [] ↔ n ≤ buffer.bytes.length
  /-- Each call is made while the content is too short, for all the room past it, which is more than
  is missing, and behind no answer that ends the calls. -/
  made : ∀ k asked, rooms[k]? = some asked →
    let answers := (source.calls rooms).result.take k
    let held := buffer.bytes ++ answers.flatMap handedOver
    held.length < n ∧ n ≤ held.length + asked ∧ held.length + asked = reply.state.1.capacity ∧
      answers.findSome? endOf = none
  /-- The first answer that ends the calls says what went wrong. -/
  failed : reply.result = (source.calls rooms).result.findSome? endOf
  /-- Nothing did exactly if the content is long enough now. -/
  failed_eq_none_iff : reply.result = none ↔ n ≤ reply.state.1.bytes.length
  /-- The content is what it was, and behind it what the answers hand over. -/
  bytes : reply.state.1.bytes = buffer.bytes ++ (source.calls rooms).result.flatMap handedOver
  /-- As much of it has been read as before. -/
  offset : reply.state.1.offset = buffer.offset

/-- **Filling a buffer keeps all that the source hands over**, however it ends. -/
theorem exists_filledBy (buffer : Buffer) (source : Source) (n : Nat) :
    ∃ rooms, FilledBy buffer source n rooms (buffer.fillTo source n) := by
  rw [fillTo]
  by_cases hn : n ≤ buffer.bytes.length
  · rw [if_pos hn]
    refine ⟨[], rfl, rfl, iff_of_true rfl hn, fun k asked hasked => ?_, rfl, iff_of_true rfl hn,
      (List.append_nil _).symm, rfl⟩
    cases hasked
  · rw [if_neg hn]
    obtain ⟨rooms, hrooms⟩ := source.exists_fetched (n - buffer.bytes.length)
      (grown buffer.capacity n - buffer.bytes.length)
    have hgrown := le_grown buffer.capacity n
    refine ⟨rooms, hrooms.journal, hrooms.state, ?_, ?_, hrooms.failed, ?_,
      congrArg (buffer.bytes ++ ·) hrooms.came, rfl⟩
    · exact hrooms.eq_nil_iff.trans (iff_of_false (by omega) hn)
    · intro k asked hasked
      obtain ⟨hshort, rfl, hnone⟩ := hrooms.made k asked hasked
      dsimp only
      rw [List.length_append, capacity_extend]
      exact ⟨by omega, by omega, by omega, hnone⟩
    · dsimp only
      rw [Source.failed_fill_eq_none_iff, length_bytes_extend]
      omega

/-- Without the interruptions, filling a buffer comes to the same, in as many calls fewer. -/
theorem fillTo_undisturbed (buffer : Buffer) (source : Source) (n : Nat) :
    buffer.fillTo source.undisturbed n =
      ⟨(buffer.fillTo source n).result,
        ((buffer.fillTo source n).state.1, (buffer.fillTo source n).state.2.undisturbed),
        (buffer.fillTo source n).journal.filter (!·.isInterruption)⟩ := by
  rw [fillTo, fillTo]
  split
  · rfl
  · dsimp only
    rw [Source.fill_undisturbed]

/-- A source that hands over two bytes, is interrupted, hands over four and is reset. -/
def sampleSource : Source :=
  ⟨[1, 2, 3, 4, 5, 6, 7],
    ⟨[.moves 2, .fails (.io ⟨.interrupted, "interrupted"⟩), .moves 4,
      .fails (.io ⟨.connectionReset, "reset"⟩)], none⟩⟩

/-- A buffer with two bytes, of which one has been read. -/
def sampleBuffer : Buffer := ⟨[8, 9], [], 1024, 1⟩

end Buffer

end SplitHello
