import SplitHello.Bytes
import SplitHello.Journal

/-!
# Proofs/Guarded/Operations — operations that are used inside their domains or not at all

Cutting bytes, taking numbers from each other and bringing a number between bounds are total here
where a machine would stop.  A **guarded** operation answers only inside its domain, and a guarded
program answers only if all of its operations do.  So a guarded program that answers what the plain
one does uses no operation outside its domain.  A guarded loop is given a
number of turns, and answers nothing either if it needs more of them.

A guarded decoder is a `Step`; `Keeps` says that it does what a plain one does.

* `Keeps.bind`, `Keeps.check`, `Keeps.use` — it is shown step by step;
* `Keeps.run_eq` — a step that keeps up with a plain one answers, and the same.

A guarded call leaves a state as well; it `Agrees` with a plain one if the states stand for each
other whenever those before the calls did.

* `Agrees.each` — then so do whole runs of calls.
-/

namespace SplitHello.Guarded

/-! ## Operations -/

/-- The bytes from `start` up to `stop`, if these are places of the bytes in this order. -/
def slice (b : Bytes) (start stop : Nat) : Option Bytes :=
  if start ≤ stop ∧ stop ≤ b.length then some ((b.take stop).drop start) else none

/-- The first `n` bytes and the rest, if there are so many. -/
def splitAt (b : Bytes) (n : Nat) : Option (Bytes × Bytes) :=
  if n ≤ b.length then some (b.take n, b.drop n) else none

/-- The bytes as a run of `n`, if that is how many there are. -/
def exactly (n : Nat) (b : Bytes) : Option { bytes : Bytes // bytes.length = n } :=
  if h : b.length = n then some ⟨b, h⟩ else none

/-- `m` less `n`, if `n` is no more than `m`. -/
def minus (m n : Nat) : Option Nat := if n ≤ m then some (m - n) else none

/-- `n` brought between two bounds, if these are in order. -/
def clamp (n low high : Nat) : Option Nat :=
  if low ≤ high then some (max low (min n high)) else none

variable {b : Bytes} {m n start stop : Nat}

theorem slice_eq_some (hstart : start ≤ stop) (hstop : stop ≤ b.length) :
    slice b start stop = some ((b.take stop).drop start) := if_pos ⟨hstart, hstop⟩

theorem slice_front (h : n ≤ b.length) : slice b 0 n = some (b.take n) :=
  slice_eq_some (Nat.zero_le n) h

theorem slice_rest (h : n ≤ b.length) : slice b n b.length = some (b.drop n) := by
  rw [slice_eq_some h (Nat.le_refl _), List.take_length]

theorem slice_add (h : start + n ≤ b.length) :
    slice b start (start + n) = some ((b.drop start).take n) := by
  rw [slice_eq_some (Nat.le_add_right _ _) h, List.drop_take, Nat.add_sub_cancel_left]

theorem splitAt_eq_some (h : n ≤ b.length) : splitAt b n = some (b.take n, b.drop n) := if_pos h

theorem exactly_eq_some (h : b.length = n) : exactly n b = some ⟨b, h⟩ := dif_pos h

theorem minus_eq_some (h : n ≤ m) : minus m n = some (m - n) := if_pos h

theorem clamp_eq_some {low high : Nat} (h : low ≤ high) :
    clamp n low high = some (max low (min n high)) := if_pos h

/-! ## Decoders -/

/-- A step of a guarded decoder: an answer, or an error that it reports, or neither if an operation
is used outside its domain. -/
abbrev Step (ε α : Type) := ExceptT ε Option α

/-- A step that uses an operation. -/
def use {ε α : Type} (x : Option α) : Step ε α := ExceptT.lift x

variable {ε ε' α α' β β' : Type} {rel : α → α' → Prop} {rel' : β → β' → Prop}

/-- A guarded step does what a plain one does: it reports the same error, or its answer stands for
the other's. -/
inductive Keeps (rel : α → α' → Prop) : Step ε α → Except ε α' → Prop
  /-- Both answer. -/
  | ok {a : α} {a' : α'} (h : rel a a') : Keeps rel (pure a) (.ok a')
  /-- Both report an error. -/
  | error (e : ε) : Keeps rel (throw e) (.error e)

namespace Keeps

/-- A step without operations does what it does. -/
theorem of_some (plain : Except ε α) : Keeps Eq (.mk (some plain)) plain := by
  cases plain with
  | ok a => exact .ok rfl
  | error e => exact .error e

variable {step : Step ε α} {plain : Except ε α'}

/-- **A step and what follows it keep up if each of them does.** -/
theorem bind {next : α → Step ε β} {next' : α' → Except ε β'} (h : Keeps rel step plain)
    (hnext : ∀ a a', rel a a' → Keeps rel' (next a) (next' a')) :
    Keeps rel' (step >>= next) (plain >>= next') := by
  cases h with
  | ok h => exact hnext _ _ h
  | error e => exact .error e

/-- So does a step whose answer is changed. -/
theorem map {f : α → β} {f' : α' → β'} (h : Keeps rel step plain)
    (hf : ∀ a a', rel a a' → rel' (f a) (f' a')) : Keeps rel' (f <$> step) (plain.map f') := by
  cases h with
  | ok h => exact .ok (hf _ _ h)
  | error e => exact .error e

/-- So does one whose error is changed. -/
theorem adapt (f : ε → ε') (h : Keeps rel step plain) :
    Keeps rel (step.adapt f) (plain.mapError f) := by
  cases h with
  | ok h => exact .ok h
  | error e => exact .error (f e)

/-- What the plain step's answer is always like, an answer that stands for it is too. -/
theorem and {p : α' → Prop} (h : Keeps rel step plain) (hp : ∀ a', plain = .ok a' → p a') :
    Keeps (fun a a' => rel a a' ∧ p a') step plain := by
  cases h with
  | ok h => exact .ok ⟨h, hp _ rfl⟩
  | error e => exact .error e

/-- **A check keeps up with one of the same thing.** -/
theorem check {wrong wrong' : Prop} [Decidable wrong] [Decidable wrong'] {e e' : ε}
    {next : PUnit → Step ε α} {next' : PUnit → Except ε α'} (hwrong : wrong ↔ wrong')
    (he : e = e') (hnext : ¬ wrong → Keeps rel (next ⟨⟩) (next' ⟨⟩)) :
    Keeps rel (if wrong then throw e >>= next else next ⟨⟩)
      (if wrong' then throw e' >>= next' else next' ⟨⟩) := by
  by_cases h : wrong
  · rw [if_pos h, if_pos (hwrong.mp h), ← he]
    exact .error e
  · rw [if_neg h, if_neg (mt hwrong.mpr h)]
    exact hnext h

/-- If the plain step answers, so does the guarded one. -/
theorem exists_pure {a' : α'} (h : Keeps rel step (.ok a')) : ∃ a, step = pure a ∧ rel a a' := by
  cases h with
  | ok h => exact ⟨_, rfl, h⟩

/-- If the plain step reports an error, so does the guarded one. -/
theorem eq_throw {e : ε} (h : Keeps rel step (.error e)) : step = throw e := by
  cases h with
  | error => rfl

/-- **An operation that answers can be used.** -/
theorem use {x : Option β} {b : β} {next : β → Step ε α} (hx : x = some b)
    (hnext : Keeps rel (next b) plain) : Keeps rel (Guarded.use x >>= next) plain := by
  rw [hx]
  exact hnext

/-- **A step that keeps up answers, and the same.** -/
theorem run_eq {plain : Except ε α} (h : Keeps Eq step plain) : step.run = some plain := by
  cases h with
  | ok h => rw [h]; rfl
  | error e => rfl

end Keeps

/-! ## Calls -/

variable {σ σ' τ τ' : Type} {stands : σ → σ' → Prop} {stands' : τ → τ' → Prop}

/-- A guarded call does what a plain one does: it answers the same, the same happens on the way, and
the state that it leaves stands for the other's. -/
inductive Agrees (stands : σ → σ' → Prop) : Option (Reply σ α) → Reply σ' α → Prop
  /-- The two replies. -/
  | intro {a : α} {s : σ} {s' : σ'} {journal : Journal} (h : stands s s') :
      Agrees stands (some ⟨a, s, journal⟩) ⟨a, s', journal⟩

/-- Guarded calls one after the other, each on the state that the one before it left. -/
def each (call : σ → β → Option (Reply σ α)) (state : σ) : List β → Option (Reply σ (List α))
  | [] => return ⟨[], state, []⟩
  | b :: later => do
      let reply ← call state b
      let replies ← each call reply.state later
      return (replies.map (reply.result :: ·)).after reply.journal

namespace Agrees

variable {call : Option (Reply σ α)} {plain : Reply σ' α}

theorem exists_reply (h : Agrees stands call plain) : ∃ (a : α) (s : σ) (s' : σ')
    (journal : Journal), call = some ⟨a, s, journal⟩ ∧ plain = ⟨a, s', journal⟩ ∧ stands s s' := by
  cases h with
  | intro h => exact ⟨_, _, _, _, rfl, rfl, h⟩

/-- Agreement survives what happened before the call. -/
theorem after (journal : Journal) (h : Agrees stands call plain) :
    Agrees stands (do return (← call).after journal) (plain.after journal) := by
  cases h with
  | intro h => exact .intro h

/-- Agreement survives a change of the answer. -/
theorem map (f : α → β) (h : Agrees stands call plain) :
    Agrees stands (do return (← call).map f) (plain.map f) := by
  cases h with
  | intro h => exact .intro h

/-- **Calls that agree one by one agree as a run.** -/
theorem each {call : σ → β → Option (Reply σ α)} {plain : σ' → β → Reply σ' α}
    (hcall : ∀ s s' b, stands s s' → Agrees stands (call s b) (plain s' b)) :
    ∀ {s : σ} {s' : σ'} (inputs : List β), stands s s' →
      Agrees stands (Guarded.each call s inputs) (Reply.each plain s' inputs)
  | _, _, [], h => .intro h
  | s, s', b :: later, h => by
      obtain ⟨a, s₁, s₁', journal, hguarded, hplain, h₁⟩ := (hcall s s' b h).exists_reply
      have hlater := ((each hcall later h₁).map (a :: ·)).after journal
      rw [bind_assoc] at hlater
      rw [Guarded.each, Reply.each, hguarded, hplain]
      exact hlater

end Agrees

end SplitHello.Guarded
