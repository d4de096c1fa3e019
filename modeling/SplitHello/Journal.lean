import SplitHello.Journal.Note

/-!
# Journal — what happens during a call, in order

Reading and writing change a state, may fail, and do things on the way that matter: calls to the
outside, pauses, notes.  A `Reply` holds all of it, so that what a call did is a value like what it
answers.
-/

namespace SplitHello

/-- One thing that happens during a call. -/
inductive Event where
  /-- Up to `room` bytes were asked for; so many came. -/
  | read (room : Nat) (got : Except Failure Nat)
  /-- Bytes were offered; so many of them, from the front, were accepted. -/
  | write (offered : Bytes) (accepted : Except Failure Nat)
  /-- Buffered bytes were to be sent on. -/
  | flush (result : Except Failure Unit)
  /-- Both directions of the connection were to be shut down. -/
  | close (result : Except Failure Unit)
  /-- The time that a read may take was to be set, in milliseconds. -/
  | setReadTimeout (ms : Option Nat) (result : Except Failure Unit)
  /-- The time that a write may take was to be set, in milliseconds. -/
  | setWriteTimeout (ms : Option Nat) (result : Except Failure Unit)
  /-- Nothing was done for so many milliseconds. -/
  | pause (ms : UInt64)
  /-- A remark was made. -/
  | note (note : Note)

/-- Whether an event is a call to the outside. -/
def Event.isCall : Event → Bool
  | .pause _ | .note _ => false
  | _ => true

/-- What happened, in order. -/
abbrev Journal := List Event

namespace Journal

/-- The notes of a journal. -/
def notes (journal : Journal) : List Note :=
  journal.filterMap fun
    | .note n => some n
    | _ => none

/-- The pauses of a journal, in milliseconds. -/
def pauses (journal : Journal) : List UInt64 :=
  journal.filterMap fun
    | .pause ms => some ms
    | _ => none

/-- The bytes that a write call offers and the part of them that is accepted. -/
def acceptedIn : Event → Bytes
  | .write offered (.ok n) => offered.take n
  | _ => []

/-- All bytes that were accepted, in order. -/
def accepted (journal : Journal) : Bytes := journal.flatMap acceptedIn

/-- The buffers that were offered to write calls, in order. -/
def offers (journal : Journal) : List Bytes :=
  journal.filterMap fun
    | .write offered _ => some offered
    | _ => none

/-- The calls to the outside, in order. -/
def calls (journal : Journal) : Journal := journal.filter Event.isCall

/-- The fragments that were begun, in order: of each its zone, its place there, its length and the
pause drawn for it. -/
def begun (journal : Journal) : List (String × Nat × Nat × UInt64) :=
  journal.filterMap fun
    | .note (.writingFragment zone _ position length delay) => some (zone, position, length, delay)
    | _ => none

@[simp] theorem accepted_append (first second : Journal) :
    accepted (first ++ second) = accepted first ++ accepted second :=
  List.flatMap_append

@[simp] theorem notes_append (first second : Journal) :
    notes (first ++ second) = notes first ++ notes second :=
  List.filterMap_append

@[simp] theorem pauses_append (first second : Journal) :
    pauses (first ++ second) = pauses first ++ pauses second :=
  List.filterMap_append

@[simp] theorem offers_append (first second : Journal) :
    offers (first ++ second) = offers first ++ offers second :=
  List.filterMap_append

@[simp] theorem calls_append (first second : Journal) :
    calls (first ++ second) = calls first ++ calls second :=
  List.filter_append ..

@[simp] theorem begun_append (first second : Journal) :
    begun (first ++ second) = begun first ++ begun second :=
  List.filterMap_append

end Journal

/-- What a call answers, the state it leaves, and what happened during it. -/
structure Reply (σ α : Type) where
  /-- What the call answers. -/
  result : α
  /-- The state after the call. -/
  state : σ
  /-- What happened during the call. -/
  journal : Journal

namespace Reply

/-- A reply with its answer changed. -/
def map {σ α β : Type} (f : α → β) (reply : Reply σ α) : Reply σ β :=
  ⟨f reply.result, reply.state, reply.journal⟩

/-- A reply with its state seen as part of another. -/
def within {σ τ α : Type} (f : σ → τ) (reply : Reply σ α) : Reply τ α :=
  ⟨reply.result, f reply.state, reply.journal⟩

/-- A reply with something that happened before the call. -/
def after {σ α : Type} (journal : Journal) (reply : Reply σ α) : Reply σ α :=
  ⟨reply.result, reply.state, journal ++ reply.journal⟩

/-- Calls one after the other, each on the state that the one before it left. -/
def each {σ α β : Type} (call : σ → α → Reply σ β) (state : σ) : List α → Reply σ (List β)
  | [] => ⟨[], state, []⟩
  | a :: later =>
      let reply := call state a
      ((each call reply.state later).map (reply.result :: ·)).after reply.journal

@[simp] theorem result_within {σ τ α : Type} (f : σ → τ) (reply : Reply σ α) :
    (reply.within f).result = reply.result := rfl

@[simp] theorem state_within {σ τ α : Type} (f : σ → τ) (reply : Reply σ α) :
    (reply.within f).state = f reply.state := rfl

@[simp] theorem journal_within {σ τ α : Type} (f : σ → τ) (reply : Reply σ α) :
    (reply.within f).journal = reply.journal := rfl

@[simp] theorem result_after {σ α : Type} (journal : Journal) (reply : Reply σ α) :
    (reply.after journal).result = reply.result := rfl

@[simp] theorem state_after {σ α : Type} (journal : Journal) (reply : Reply σ α) :
    (reply.after journal).state = reply.state := rfl

@[simp] theorem journal_after {σ α : Type} (journal : Journal) (reply : Reply σ α) :
    (reply.after journal).journal = journal ++ reply.journal := rfl

@[simp] theorem result_map {σ α β : Type} (f : α → β) (reply : Reply σ α) :
    (reply.map f).result = f reply.result := rfl

@[simp] theorem state_map {σ α β : Type} (f : α → β) (reply : Reply σ α) :
    (reply.map f).state = reply.state := rfl

@[simp] theorem journal_map {σ α β : Type} (f : α → β) (reply : Reply σ α) :
    (reply.map f).journal = reply.journal := rfl

section Each

variable {σ α β : Type} (call : σ → α → Reply σ β) (state : σ)

@[simp] theorem result_each_cons (a : α) (later : List α) :
    (each call state (a :: later)).result =
      (call state a).result :: (each call (call state a).state later).result := rfl

@[simp] theorem state_each_cons (a : α) (later : List α) :
    (each call state (a :: later)).state = (each call (call state a).state later).state := rfl

@[simp] theorem journal_each_cons (a : α) (later : List α) :
    (each call state (a :: later)).journal =
      (call state a).journal ++ (each call (call state a).state later).journal := rfl

/-- Every call is answered. -/
theorem length_result_each : ∀ (state : σ) (inputs : List α),
    (each call state inputs).result.length = inputs.length
  | _, [] => rfl
  | state, a :: later => congrArg Nat.succ (length_result_each (call state a).state later)

end Each

end Reply

end SplitHello
