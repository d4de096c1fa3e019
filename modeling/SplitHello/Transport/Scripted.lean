import SplitHello.Source
import SplitHello.Transport

/-!
# Transport/Scripted — a transport in memory

Its writes and flushes end as scripts say, its reads come from a source, and its controls either
succeed, or fail as laid down, or are not offered at all.
-/

namespace SplitHello

/-- How the controls of a transport end: with a failure, or well. -/
structure Controls where
  /-- How shutting down ends. -/
  close : Option Failure
  /-- How bounding reads ends. -/
  readTimeout : Option Failure
  /-- How bounding writes ends. -/
  writeTimeout : Option Failure
  deriving DecidableEq

/-- A transport in memory. -/
structure ScriptedTransport where
  /-- How the writes end. -/
  writes : Script
  /-- How the flushes end. -/
  flushes : Script
  /-- What reads are answered from. -/
  source : Source
  /-- How the controls end, if they are offered. -/
  controls : Option Controls
  deriving DecidableEq

namespace ScriptedTransport

/-- Offer bytes. -/
def write (t : ScriptedTransport) (bytes : Bytes) :
    Reply ScriptedTransport (Except Failure Nat) :=
  match t.writes.next with
  | (.error failure, writes) =>
      ⟨.error failure, { t with writes }, [.write bytes (.error failure)]⟩
  | (.ok limit, writes) =>
      ⟨.ok (atMost limit bytes.length), { t with writes },
        [.write bytes (.ok (atMost limit bytes.length))]⟩

/-- Send buffered bytes on. -/
def flush (t : ScriptedTransport) : Reply ScriptedTransport (Except Failure Unit) :=
  let (outcome, flushes) := t.flushes.next
  let result := outcome.map fun _ => ()
  ⟨result, { t with flushes }, [.flush result]⟩

/-- Ask for bytes. -/
def read (t : ScriptedTransport) (room : Nat) : Reply ScriptedTransport (Except Failure Bytes) :=
  (t.source.read room).within fun source => { t with source }

/-- A control that ends as laid down, if it is offered. -/
def control (t : ScriptedTransport) (failure : Controls → Option Failure)
    (event : Except Failure Unit → Event) : Reply ScriptedTransport (Except Failure Unit) :=
  match t.controls with
  | none => Transport.refuse t
  | some controls =>
      let result :=
        match failure controls with
        | none => .ok ()
        | some f => .error f
      ⟨result, t, [event result]⟩

theorem length_writes_write_le (t : ScriptedTransport) (bytes : Bytes) :
    (t.write bytes).state.writes.length ≤ t.writes.length := by
  have hle := Script.length_next_le t.writes
  unfold write
  split <;> rename_i hnext <;> rwa [hnext] at hle

theorem length_writes_write_lt {t : ScriptedTransport} {bytes : Bytes} {failure : Failure}
    (h : (t.write bytes).result = .error failure) :
    (t.write bytes).state.writes.length < t.writes.length := by
  unfold write at h ⊢
  split at h
  · rename_i f writes hnext
    have hlt := @Script.length_next_lt t.writes f (by rw [hnext])
    rwa [hnext] at hlt
  · cases h

instance : Transport ScriptedTransport where
  write := write
  flush := flush
  read := read
  close t := t.control Controls.close .close
  setReadTimeout t ms := t.control Controls.readTimeout (.setReadTimeout ms)
  setWriteTimeout t ms := t.control Controls.writeTimeout (.setWriteTimeout ms)
  patience t := t.writes.length
  patience_write_le := length_writes_write_le
  patience_write_lt h _ := length_writes_write_lt h

end ScriptedTransport

end SplitHello
