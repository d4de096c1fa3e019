import Mathlib.Logic.Relation
import Mathlib.Order.WellFounded
import SplitHello.Proofs.Journal.Reads

/-!
# Proofs/Feed — sources that may go on for ever

A `Feed` is a source of any kind, which may go on for ever.  Filling from it need not end: `Fills`
relates it to what it comes to if it does.  A source runs dry if no endless row of calls on it
brings something or is interrupted every time.

* `runsDry_of_weight`, `runsDry_ofSource` — when a source runs dry, and that a scripted one does;
* `Fills.filled`, `FillsTo.filledTo` — what filling comes to, if it ends;
* `exists_fills`, `exists_fillsTo` — filling from a source that runs dry ends;
* `Fills.eq_fill`, `FillsTo.eq_fillTo` — on a scripted source it comes to what filling is;
* `Fills.need_eq_zero` — filling from a source that is always interrupted does not end.
-/

namespace SplitHello

/-- A source of any kind. -/
structure Feed (σ : Type) where
  /-- Asked for up to so many bytes, what comes and what is left. -/
  ask : σ → Nat → Except Failure Bytes × σ
  /-- No more comes than was asked for. -/
  length_le : ∀ {source room chunk}, (ask source room).1 = .ok chunk → chunk.length ≤ room

namespace Feed

variable {σ : Type} {feed : Feed σ} {source : σ}

/-- Whether a call brings something or was interrupted, so that it is worth making another. -/
def goesOn : Except Failure Bytes → Bool
  | .ok chunk => !chunk.isEmpty
  | .error failure => failure.isInterrupted

/-- A call on `source` that goes on leaves `after`. -/
def Step (feed : Feed σ) (after source : σ) : Prop :=
  ∃ room, goesOn (feed.ask source room).1 = true ∧ (feed.ask source room).2 = after

theorem goesOn_ok {chunk : Bytes} (h : chunk ≠ []) : goesOn (.ok chunk) = true := by
  rw [goesOn, List.isEmpty_eq_false_iff.mpr h]
  rfl

theorem step_of_ask {after : σ} {room : Nat} {result : Except Failure Bytes}
    (hask : feed.ask source room = (result, after)) (hgoes : goesOn result = true) :
    feed.Step after source := ⟨room, by rw [hask]; exact hgoes, by rw [hask]⟩

/-- No endless row of calls brings something or is interrupted every time.  So it is if there are
only so many bytes and so many interruptions, and then the source ends or fails. -/
def RunsDry (feed : Feed σ) (source : σ) : Prop :=
  ¬ ∃ states : Nat → σ, states 0 = source ∧ ∀ k, feed.Step (states (k + 1)) (states k)

theorem runsDry_iff_acc : feed.RunsDry source ↔ Acc feed.Step source := by
  rw [RunsDry, ← not_acc_iff_exists_descending_chain, Classical.not_not]

/-- If there are only so many bytes and interruptions left to come, and each call that goes on uses
one up, the source runs dry. -/
theorem runsDry_of_weight (weight : σ → Nat)
    (hless : ∀ {after source : σ}, feed.Step after source → weight after < weight source)
    (source : σ) : feed.RunsDry source := by
  have hacc : Acc (InvImage (· < ·) weight) source :=
    (InvImage.wf weight wellFounded_lt).apply source
  exact runsDry_iff_acc.mpr (Subrelation.accessible hless hacc)

/-- Calls that go on bring so many bytes and lead from one state to another, if there are any. -/
inductive Leads (feed : Feed σ) (source : σ) : (handedOut : Nat) → (after : σ) → Prop
  /-- There are none. -/
  | still : Leads feed source 0 source
  /-- There are some. -/
  | on {handedOut : Nat} {after : σ} (h : Relation.TransGen feed.Step after source) :
      Leads feed source handedOut after

variable {middle after : σ} {m n : Nat}

theorem Leads.trans (h : feed.Leads source m middle) (h' : feed.Leads middle n after) :
    feed.Leads source (m + n) after := by
  cases h with
  | still => rwa [Nat.zero_add]
  | on h =>
      cases h' with
      | still => exact .on h
      | on h' => exact .on (h'.trans h)

/-- What is left of a source that runs dry runs dry. -/
theorem Leads.acc (h : feed.Leads source n after) (hdry : Acc feed.Step source) :
    Acc feed.Step after := by
  cases h with
  | still => exact hdry
  | on h => exact acc_transGen_iff.mp (hdry.transGen.inv h)

/-- A scripted source. -/
def ofSource : Feed Source where
  ask source room := ((source.read room).result, (source.read room).state)
  length_le {source room _} h :=
    (Source.read_ok (congrArg (Reply.mk · _ (source.read room).journal) h)).2.1

theorem read_of_ask {source left : Source} {room : Nat} {result : Except Failure Bytes}
    (h : ofSource.ask source room = (result, left)) :
    source.read room = ⟨result, left, [.read room (result.map List.length)]⟩ := by
  obtain ⟨result', left', journal, hread⟩ : ∃ result left journal,
    source.read room = ⟨result, left, journal⟩ := ⟨_, _, _, rfl⟩
  change ((source.read room).result, (source.read room).state) = (result, left) at h
  rw [hread] at h
  cases h
  rw [hread, Source.journal_read hread]

/-- **A scripted source runs dry**: each call that goes on leaves less of it to account for. -/
theorem runsDry_ofSource (source : Source) : ofSource.RunsDry source := by
  refine runsDry_of_weight Source.weight ?_ source
  rintro after source ⟨room, hgoes, hafter⟩
  cases hask : ofSource.ask source room with
  | mk result left =>
      rw [hask] at hgoes hafter
      obtain rfl : left = after := hafter
      cases result with
      | error failure => exact Source.weight_lt_of_read_error (read_of_ask hask)
      | ok chunk =>
          refine Source.weight_lt_of_read_ok (read_of_ask hask) ?_
          rintro rfl
          cases hgoes

/-! ## Filling -/

/-- Reading until `need` bytes have come, asking for what still fits into `room`, ends, and this is
what it comes to. -/
inductive Fills (feed : Feed σ) : σ → (need room : Nat) → Reply σ (Bytes × Option Failure) → Prop
  /-- Enough has come. -/
  | enough {source : σ} {room : Nat} : Fills feed source 0 room ⟨([], none), source, []⟩
  /-- The call was interrupted, and is made again. -/
  | interrupted {source after : σ} {need room : Nat} {failure : Failure}
      {reply : Reply σ (Bytes × Option Failure)} (hneed : need ≠ 0)
      (hask : feed.ask source room = (.error failure, after)) (hi : failure.isInterrupted = true)
      (h : Fills feed after need room reply) :
      Fills feed source need room (reply.after [.read room (.error failure)])
  /-- The source failed. -/
  | failed {source after : σ} {need room : Nat} {failure : Failure} (hneed : need ≠ 0)
      (hask : feed.ask source room = (.error failure, after))
      (hi : ¬ failure.isInterrupted = true) :
      Fills feed source need room ⟨([], some failure), after, [.read room (.error failure)]⟩
  /-- The source ended. -/
  | ended {source after : σ} {need room : Nat} (hneed : need ≠ 0)
      (hask : feed.ask source room = (.ok [], after)) :
      Fills feed source need room ⟨([], some (.io .sourceEnded)), after, [.read room (.ok 0)]⟩
  /-- Something came, and then what comes after it. -/
  | more {source after : σ} {need room : Nat} {chunk : Bytes}
      {reply : Reply σ (Bytes × Option Failure)} (hneed : need ≠ 0)
      (hask : feed.ask source room = (.ok chunk, after)) (hne : chunk ≠ [])
      (h : Fills feed after (need - chunk.length) (room - chunk.length) reply) :
      Fills feed source need room ((reply.map fun got => (chunk ++ got.1, got.2)).after
        [.read room (.ok chunk.length)])

/-- Reading until the content of a buffer has at least `n` bytes ends, and this is what it comes
to. -/
inductive FillsTo (feed : Feed σ) (buffer : Buffer) (source : σ) (n : Nat) :
    Reply (Buffer × σ) (Option Failure) → Prop
  /-- It has. -/
  | enough (hn : n ≤ buffer.bytes.length) :
      FillsTo feed buffer source n ⟨none, (buffer, source), []⟩
  /-- The room is grown, and bytes are read into it. -/
  | fill {reply : Reply σ (Bytes × Option Failure)} (hn : ¬ n ≤ buffer.bytes.length)
      (h : feed.Fills source (n - buffer.bytes.length)
        (Buffer.grown buffer.capacity n - buffer.bytes.length) reply) :
      FillsTo feed buffer source n ⟨reply.result.2,
        (buffer.extend (Buffer.grown buffer.capacity n) reply.result.1, reply.state), reply.journal⟩

variable {need room n : Nat} {buffer : Buffer}

/-- What filling comes to. -/
structure Filled (feed : Feed σ) (source : σ) (need : Nat)
    (reply : Reply σ (Bytes × Option Failure)) : Prop where
  /-- Nothing was done but asking. -/
  reads : ∀ e ∈ reply.journal, ∃ asked got, e = .read asked got
  /-- What came is what the calls handed out. -/
  handedOut : reply.journal.handedOut = reply.result.1.length
  /-- If nothing went wrong, enough came. -/
  enough : reply.result.2 = none → need ≤ reply.result.1.length
  /-- If nothing went wrong, every call went on. -/
  leads : reply.result.2 = none → feed.Leads source reply.journal.handedOut reply.state

theorem Fills.filled {reply : Reply σ (Bytes × Option Failure)}
    (h : feed.Fills source need room reply) : Filled feed source need reply := by
  induction h with
  | enough =>
      exact ⟨fun _ he => absurd he List.not_mem_nil, rfl, fun _ => Nat.le_refl 0, fun _ => .still⟩
  | @interrupted source after need room failure reply _ hask hi _ ih =>
      have hleads : feed.Leads source 0 after := .on (.single (step_of_ask hask hi))
      exact ⟨List.forall_mem_cons.mpr ⟨⟨room, _, rfl⟩, ih.reads⟩,
        (Nat.zero_add _).trans ih.handedOut, ih.enough, fun hok => hleads.trans (ih.leads hok)⟩
  | failed =>
      exact ⟨fun _ he => ⟨_, _, List.mem_singleton.mp he⟩, rfl,
        fun h => absurd h (Option.some_ne_none _), fun h => absurd h (Option.some_ne_none _)⟩
  | ended =>
      exact ⟨fun _ he => ⟨_, _, List.mem_singleton.mp he⟩, rfl,
        fun h => absurd h (Option.some_ne_none _), fun h => absurd h (Option.some_ne_none _)⟩
  | @more source after need room chunk reply _ hask hne _ ih =>
      have hleads : feed.Leads source chunk.length after :=
        .on (.single (step_of_ask hask (goesOn_ok hne)))
      refine ⟨List.forall_mem_cons.mpr ⟨⟨room, _, rfl⟩, ih.reads⟩, ?_, fun hok => ?_, fun hok => ?_⟩
      · rw [Reply.result_after, Reply.result_map, List.length_append, ← ih.handedOut]
        rfl
      · have := ih.enough hok
        rw [Reply.result_after, Reply.result_map, List.length_append]
        omega
      · exact hleads.trans (ih.leads hok)

/-- What filling a buffer comes to. -/
structure FilledTo (feed : Feed σ) (buffer : Buffer) (source : σ) (n : Nat)
    (reply : Reply (Buffer × σ) (Option Failure)) : Prop where
  /-- Nothing was done but asking. -/
  reads : ∀ e ∈ reply.journal, ∃ asked got, e = .read asked got
  /-- The content is longer by what the calls handed out. -/
  length_eq : reply.state.1.bytes.length = buffer.bytes.length + reply.journal.handedOut
  /-- If nothing went wrong, the content is long enough. -/
  enough : reply.result = none → n ≤ reply.state.1.bytes.length
  /-- If nothing went wrong, every call went on. -/
  leads : reply.result = none → feed.Leads source reply.journal.handedOut reply.state.2

theorem FillsTo.filledTo {reply : Reply (Buffer × σ) (Option Failure)}
    (h : feed.FillsTo buffer source n reply) : FilledTo feed buffer source n reply := by
  cases h with
  | enough hn =>
      exact ⟨fun _ he => absurd he List.not_mem_nil, rfl, fun _ => hn, fun _ => .still⟩
  | fill hn h =>
      have hfilled := h.filled
      refine ⟨hfilled.reads, ?_, fun hok => ?_, hfilled.leads⟩
      · rw [Buffer.length_bytes_extend, hfilled.handedOut]
      · have := hfilled.enough hok
        rw [Buffer.length_bytes_extend]
        omega

/-! ## Whether it ends -/

/-- **Filling from a source that runs dry ends.** -/
theorem exists_fills (hdry : Acc feed.Step source) (need room : Nat) :
    ∃ reply, feed.Fills source need room reply := by
  induction hdry generalizing need room with
  | intro source _ ih =>
    by_cases hneed : need = 0
    · subst hneed
      exact ⟨_, .enough⟩
    · cases hask : feed.ask source room with
      | mk result after =>
        cases result with
        | error failure =>
            by_cases hi : failure.isInterrupted = true
            · obtain ⟨reply, h⟩ := ih after (step_of_ask hask hi) need room
              exact ⟨_, .interrupted hneed hask hi h⟩
            · exact ⟨_, .failed hneed hask hi⟩
        | ok chunk =>
            by_cases hne : chunk = []
            · subst hne
              exact ⟨_, .ended hneed hask⟩
            · obtain ⟨reply, h⟩ := ih after (step_of_ask hask (goesOn_ok hne))
                (need - chunk.length) (room - chunk.length)
              exact ⟨_, .more hneed hask hne h⟩

theorem exists_fillsTo (hdry : Acc feed.Step source) (buffer : Buffer) (n : Nat) :
    ∃ reply, feed.FillsTo buffer source n reply := by
  by_cases hn : n ≤ buffer.bytes.length
  · exact ⟨_, .enough hn⟩
  · obtain ⟨reply, h⟩ := exists_fills hdry (n - buffer.bytes.length)
      (Buffer.grown buffer.capacity n - buffer.bytes.length)
    exact ⟨_, .fill hn h⟩

/-- Filling from a source that is always interrupted does not end. -/
theorem Fills.need_eq_zero (hfeed : ∀ source room, ∃ failure,
      (feed.ask source room).1 = .error failure ∧ failure.isInterrupted = true)
    {reply : Reply σ (Bytes × Option Failure)} (h : feed.Fills source need room reply) :
    need = 0 := by
  induction h with
  | enough => rfl
  | interrupted _ _ _ _ ih => exact ih
  | @failed source _ _ room _ _ hask hi =>
      obtain ⟨failure, hfailure, hi'⟩ := hfeed source room
      rw [hask] at hfailure
      cases hfailure
      exact absurd hi' hi
  | @ended source _ _ room _ hask | @more source _ _ room _ _ _ hask =>
      obtain ⟨failure, hfailure, -⟩ := hfeed source room
      rw [hask] at hfailure
      cases hfailure

/-! ## From a scripted source -/

/-- **From a scripted source filling comes to what it is.** -/
theorem Fills.eq_fill {source : Source} {reply : Reply Source (Bytes × Option Failure)}
    (h : ofSource.Fills source need room reply) : reply = source.fill need room := by
  induction h with
  | enough => rw [Source.fill, if_pos rfl]
  | interrupted hneed hask hi _ ih =>
      rw [Source.fill_of_error hneed (read_of_ask hask), if_pos hi, ← ih]
      rfl
  | failed hneed hask hi =>
      rw [Source.fill_of_error hneed (read_of_ask hask), if_neg hi]
      rfl
  | ended hneed hask =>
      rw [Source.fill_of_nil hneed (read_of_ask hask)]
      rfl
  | more hneed hask hne _ ih =>
      rw [Source.fill_of_ok hneed hne (read_of_ask hask), ← ih]
      rfl

theorem FillsTo.eq_fillTo {source : Source} {reply : Reply (Buffer × Source) (Option Failure)}
    (h : ofSource.FillsTo buffer source n reply) : reply = buffer.fillTo source n := by
  cases h with
  | enough hn => rw [Buffer.fillTo, if_pos hn]
  | fill hn h =>
      rw [Buffer.fillTo, if_neg hn]
      obtain rfl := h.eq_fill
      rfl

end Feed

end SplitHello
