import SplitHello.Fragment.Writer
import SplitHello.Lock
import SplitHello.Record.Reassembly
import SplitHello.Zones

/-!
# Splitter — a transport that fragments its first write

The first bytes that a client sends are its hello.  A `Splitter` looks at the first write: if it
holds a client hello whose host name stands in it in one piece, the write is cut around the name and
sent fragment by fragment.  Any other first write, and every later one, is passed on as it is; so is
everything else, and thus a splitter is a transport itself.

Reads hold one lock; writes and flushes hold another, which guards the random words.  A call that
dies poisons the lock it holds, and the calls after it take the lock all the same.

* `patience_send_le`, `patience_send_lt` — what makes it one: a write leaves no more interruptions
  to come, and fewer if it was interrupted.
-/

namespace SplitHello

/-- A transport that fragments its first write. -/
structure Splitter (τ : Type) where
  /-- Where the bytes go. -/
  transport : τ
  /-- How the first hello is cut up. -/
  policy : Policy
  /-- Whether the first write has begun. -/
  started : Bool
  /-- The lock that reads hold. -/
  readLock : Lock Unit
  /-- The lock that writes and flushes hold, on what sizes and pauses are drawn from. -/
  writeLock : Lock Words

namespace Splitter

open Transport

variable {τ : Type}

/-- A splitter over a transport. -/
def new (transport : τ) (policy : Policy) (words : Words) :
    Reply (Splitter τ) Unit :=
  ⟨(), ⟨transport, policy, false, .around (), .around words⟩, [.note (.created policy)]⟩

/-- What sizes and pauses are drawn from, also if a write or a flush has died. -/
def words (s : Splitter τ) : Words := s.writeLock.recover

/-- The splitter with its random words drawn from. -/
def withWords (s : Splitter τ) (words : Words) : Splitter τ :=
  { s with writeLock := { s.writeLock with value := words } }

/-- The splitter once a write or a flush that may have died gives its lock back. -/
def releaseWrite (s : Splitter τ) (died : Bool) : Splitter τ :=
  { s with writeLock := s.writeLock.release died }

/-- The splitter once a read that may have died gives its lock back. -/
def releaseRead (s : Splitter τ) (died : Bool) : Splitter τ :=
  { s with readLock := s.readLock.release died }

@[simp] theorem words_withWords (s : Splitter τ) (words : Words) :
    (s.withWords words).words = words := Lock.recover_eq _

@[simp] theorem words_releaseWrite (s : Splitter τ) (died : Bool) :
    (s.releaseWrite died).words = s.words := by
  rw [Splitter.words, Splitter.words, Lock.recover_eq, Lock.recover_eq]
  rfl

@[simp] theorem words_releaseRead (s : Splitter τ) (died : Bool) :
    (s.releaseRead died).words = s.words := rfl

/-! ## What the first write holds -/

/-- The zones of a first write, if it is to be fragmented, and the notes made on the way. -/
def opening (bytes : Bytes) : Option Zones × List Note :=
  let reply := readHello (.ofBytes bytes)
  match reply.result with
  | .error e => (none, reply.journal.notes ++ [.notClientHello e])
  | .ok hello =>
      match hello.sni.bind (Zones.around bytes) with
      | none => (none, reply.journal.notes ++ [.serverNameMissing hello.serverName])
      | some zones =>
          (some zones, reply.journal.notes ++
            [.splitting hello.serverName zones.offset zones.before.length zones.after.length])

variable [Transport τ]

/-! ## Sending -/

/-- The note that a call failed, which an aborted call does not live to make. -/
def noteFailure (note : IoError → Note) : Failure → Journal
  | .io e => [.note (note e)]
  | .abort => []

/-- Offer bytes to the transport once, as they are. -/
def offerOnce (s : Splitter τ) (bytes : Bytes) : Reply (Splitter τ) (Except PartialWrite Nat) :=
  let reply := Transport.write s.transport bytes
  let after := { s with transport := reply.state }
  match reply.result with
  | .ok n => ⟨.ok n, after, reply.journal⟩
  | .error failure =>
      ⟨.error ⟨0, failure⟩, after, reply.journal ++ noteFailure .forwardFailed failure⟩

/-- Write zones one after the other, up to the first that fails. -/
def writeZones (writer : FragmentWriter τ) :
    List (String × Bytes × Interval) → Reply (FragmentWriter τ) (Option Failure)
  | [] => ⟨none, writer, []⟩
  | (zone, bytes, sizes) :: later =>
      let reply := writer.writeZone zone bytes sizes
      match reply.result with
      | none => (writeZones reply.state later).after reply.journal
      | some failure =>
          ⟨some failure, reply.state,
            reply.journal ++ noteFailure (.fragmentFailed zone reply.state.written) failure⟩

/-- The zones of a write by name, each with the sizes of its fragments. -/
def zonePlan (policy : Policy) (zones : Zones) : List (String × Bytes × Interval) :=
  [("before_sni", zones.before, policy.beforeSni), ("sni", zones.serverName, policy.sni),
    ("after_sni", zones.after, policy.afterSni)]

/-- Send zones fragment by fragment. -/
def sendZones (s : Splitter τ) (zones : Zones) : Reply (Splitter τ) (Except PartialWrite Nat) :=
  let reply := writeZones ⟨s.transport, s.words, s.policy.delayMs, 0⟩ (zonePlan s.policy zones)
  let after := { s with transport := reply.state.transport }.withWords reply.state.words
  match reply.result with
  | none => ⟨.ok reply.state.written, after, reply.journal⟩
  | some failure => ⟨.error ⟨reply.state.written, failure⟩, after, reply.journal⟩

/-- Send the first bytes: in fragments if they are a hello that can be cut, else as they are. -/
def sendFirst (s : Splitter τ) (bytes : Bytes) : Reply (Splitter τ) (Except PartialWrite Nat) :=
  let (zones, notes) := opening bytes
  let reply :=
    match zones with
    | some zones => s.sendZones zones
    | none => s.offerOnce bytes
  reply.after (notes.map .note)

/-- Send bytes.  The splitter counts as started before anything else happens. -/
def send (s : Splitter τ) (bytes : Bytes) : Reply (Splitter τ) (Except PartialWrite Nat) :=
  let begun := Event.note (.beganWrite bytes.length (!s.started))
  let reply :=
    if s.started then s.offerOnce bytes else sendFirst { s with started := true } bytes
  let died := aborts PartialWrite.source reply.result
  (reply.within fun after => after.releaseWrite died).after [begun]

/-- Send bytes; a failure does not say how many of them were accepted. -/
def write (s : Splitter τ) (bytes : Bytes) : Reply (Splitter τ) (Except Failure Nat) :=
  (s.send bytes).map (·.mapError PartialWrite.source)

/-! ## A splitter is a transport -/

/-- A call on the transport under a splitter. -/
def passOn {α : Type} (s : Splitter τ) (call : τ → Reply τ α) : Reply (Splitter τ) α :=
  (call s.transport).within fun transport => { s with transport }

/-- Send buffered bytes on. -/
def flush (s : Splitter τ) : Reply (Splitter τ) (Except Failure Unit) :=
  let reply := s.passOn Transport.flush
  reply.within fun after => after.releaseWrite (aborts id reply.result)

/-- Ask the transport for up to so many bytes. -/
def read (s : Splitter τ) (room : Nat) : Reply (Splitter τ) (Except Failure Bytes) :=
  let reply := s.passOn (Transport.read · room)
  reply.within fun after => after.releaseRead (aborts id reply.result)

theorem patience_writeZones_le :
    ∀ (writer : FragmentWriter τ) (plan : List (String × Bytes × Interval)),
    patience (writeZones writer plan).state.transport ≤ patience writer.transport
  | _, [] => Nat.le_refl _
  | writer, (zone, bytes, sizes) :: later => by
      unfold writeZones
      dsimp only
      split
      · exact Nat.le_trans (patience_writeZones_le _ later)
          (FragmentWriter.patience_writeZone_le writer zone bytes sizes)
      · exact FragmentWriter.patience_writeZone_le writer zone bytes sizes

theorem not_isInterrupted_writeZones {failure : Failure} :
    ∀ {writer : FragmentWriter τ} {plan : List (String × Bytes × Interval)},
      (writeZones writer plan).result = some failure → failure.isInterrupted = false
  | _, [], h => by cases h
  | writer, (zone, bytes, sizes) :: later, h => by
      unfold writeZones at h
      dsimp only at h
      split at h
      · exact not_isInterrupted_writeZones h
      · rename_i f hf
        obtain rfl := Option.some.inj h
        exact FragmentWriter.not_isInterrupted_writeZone hf

theorem patience_offerOnce_le (s : Splitter τ) (bytes : Bytes) :
    patience (s.offerOnce bytes).state.transport ≤ patience s.transport := by
  unfold offerOnce
  dsimp only
  split <;> exact patience_write_le s.transport bytes

theorem patience_offerOnce_lt {s : Splitter τ} {bytes : Bytes} {failed : PartialWrite}
    (h : (s.offerOnce bytes).result = .error failed) (hi : failed.source.isInterrupted = true) :
    patience (s.offerOnce bytes).state.transport < patience s.transport := by
  unfold offerOnce at h ⊢
  dsimp only at h ⊢
  split at h
  · cases h
  · rename_i f hf
    obtain rfl := Except.error.inj h
    exact patience_write_lt hf hi

theorem patience_sendZones_le (s : Splitter τ) (zones : Zones) :
    patience (s.sendZones zones).state.transport ≤ patience s.transport := by
  unfold sendZones
  dsimp only
  split <;> exact patience_writeZones_le _ _

/-- Sending zones never ends in an interruption. -/
theorem not_isInterrupted_sendZones {s : Splitter τ} {zones : Zones} {failed : PartialWrite}
    (h : (s.sendZones zones).result = .error failed) : failed.source.isInterrupted = false := by
  unfold sendZones at h
  dsimp only at h
  split at h
  · cases h
  · rename_i f hf
    obtain rfl := Except.error.inj h
    exact not_isInterrupted_writeZones hf

/-- **A write leaves no more interruptions to come.** -/
theorem patience_send_le (s : Splitter τ) (bytes : Bytes) :
    patience (s.send bytes).state.transport ≤ patience s.transport := by
  unfold send sendFirst
  dsimp only
  split
  · exact patience_offerOnce_le s bytes
  · split
    · exact patience_sendZones_le _ _
    · exact patience_offerOnce_le _ bytes

/-- **An interrupted write leaves fewer to come.** -/
theorem patience_send_lt {s : Splitter τ} {bytes : Bytes} {failed : PartialWrite}
    (h : (s.send bytes).result = .error failed) (hi : failed.source.isInterrupted = true) :
    patience (s.send bytes).state.transport < patience s.transport := by
  unfold send sendFirst at h ⊢
  dsimp only at h ⊢
  split at h
  · rename_i hs
    rw [if_pos hs]
    exact patience_offerOnce_lt h hi
  · rename_i hs
    rw [if_neg hs]
    dsimp only [Reply.result_after] at h
    split at h
    · have := not_isInterrupted_sendZones h
      simp [this] at hi
    · exact patience_offerOnce_lt h hi

instance : Transport (Splitter τ) where
  write := write
  flush := flush
  read := read
  close s := s.passOn close
  setReadTimeout s ms := s.passOn (setReadTimeout · ms)
  setWriteTimeout s ms := s.passOn (setWriteTimeout · ms)
  patience s := patience s.transport
  patience_write_le := patience_send_le
  patience_write_lt := by
    intro s bytes failure h hi
    unfold write at h
    rw [Reply.result_map] at h
    cases hr : (s.send bytes).result with
    | ok n => rw [hr] at h; cases h
    | error failed =>
        rw [hr] at h
        obtain rfl := Except.error.inj h
        exact patience_send_lt hr hi

/-! ## Requests -/

/-- Write all bytes, as repeated writes do it. -/
def writeAll (s : Splitter τ) (bytes : Bytes) : Reply (Splitter τ) (Except Failure Unit) :=
  (deliver .notWrittenWhole s bytes).map fun done =>
    match done.2 with
    | none => .ok ()
    | some failure => .error failure

/-- Bound reads and then writes; the first bound that fails ends it. -/
def setTimeout (s : Splitter τ) (ms : Option Nat) : Reply (Splitter τ) (Except Failure Unit) :=
  let reply := s.passOn (setReadTimeout · ms)
  match reply.result with
  | .error failure => ⟨.error failure, reply.state, reply.journal⟩
  | .ok _ => (reply.state.passOn (setWriteTimeout · ms)).after reply.journal

/-- What can be asked of a splitter. -/
inductive Request where
  | send (bytes : Bytes)
  | write (bytes : Bytes)
  | writeAll (bytes : Bytes)
  | flush
  | read (room : Nat)
  | close
  | setTimeout (ms : Option Nat)
  | setReadTimeout (ms : Option Nat)
  | setWriteTimeout (ms : Option Nat)

/-- What a splitter answers to a request. -/
inductive Answer where
  | sent (result : Except PartialWrite Nat)
  | wrote (result : Except Failure Nat)
  | got (result : Except Failure Bytes)
  | done (result : Except Failure Unit)

/-- Do what a request asks. -/
def perform (s : Splitter τ) : Request → Reply (Splitter τ) Answer
  | .send bytes => (s.send bytes).map .sent
  | .write bytes => (s.write bytes).map .wrote
  | .writeAll bytes => (s.writeAll bytes).map .done
  | .flush => s.flush.map .done
  | .read room => (s.read room).map .got
  | .close => (s.passOn Transport.close).map .done
  | .setTimeout ms => (s.setTimeout ms).map .done
  | .setReadTimeout ms => (s.passOn (Transport.setReadTimeout · ms)).map .done
  | .setWriteTimeout ms => (s.passOn (Transport.setWriteTimeout · ms)).map .done

end Splitter

end SplitHello
