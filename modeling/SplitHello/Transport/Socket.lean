import SplitHello.Transport

/-!
# Transport/Socket — one end of a local connection

What is written goes to the peer whole, until both directions are shut down: from then on every
write fails, also one of no bytes.  What the peer has sent is there to be read at once.  Where there
is nothing to read, a read answers with no byte if nothing can come any more, and otherwise runs
into its time bound.
-/

namespace SplitHello

/-- One end of a local connection. -/
structure Socket where
  /-- What the peer has sent and has not been read. -/
  inbound : Bytes
  /-- Whether the peer has stopped sending. -/
  peerEnded : Bool
  /-- What was written and has not been read by the peer. -/
  outbound : Bytes
  /-- Whether both directions were shut down. -/
  closed : Bool
  /-- The bound on reads, in milliseconds. -/
  readTimeout : Option Nat
  /-- The bound on writes, in milliseconds. -/
  writeTimeout : Option Nat
  deriving DecidableEq

/-- The other side of the connection is gone. -/
def IoError.brokenPipe : IoError := ⟨.brokenPipe, "Broken pipe (os error 32)"⟩

/-- Nothing came in time. -/
def IoError.wouldBlock : IoError := ⟨.wouldBlock, "Resource temporarily unavailable (os error 11)"⟩

/-- A time bound is nothing. -/
def IoError.zeroTimeout : IoError := ⟨.invalidInput, "cannot set a 0 duration timeout"⟩

namespace Socket

/-- A fresh connection. -/
def connected : Socket := ⟨[], false, [], false, none, none⟩

/-- Offer bytes. -/
def write (s : Socket) (bytes : Bytes) : Reply Socket (Except Failure Nat) :=
  if s.closed then
    ⟨.error (.io .brokenPipe), s, [.write bytes (.error (.io .brokenPipe))]⟩
  else
    ⟨.ok bytes.length, { s with outbound := s.outbound ++ bytes },
      [.write bytes (.ok bytes.length)]⟩

/-- Ask for bytes. -/
def read (s : Socket) (room : Nat) : Reply Socket (Except Failure Bytes) :=
  if s.inbound.isEmpty && !s.closed && !s.peerEnded then
    ⟨.error (.io .wouldBlock), s, [.read room (.error (.io .wouldBlock))]⟩
  else
    let chunk := s.inbound.take room
    ⟨.ok chunk, { s with inbound := s.inbound.drop room }, [.read room (.ok chunk.length)]⟩

/-- Shut down both directions. -/
def close (s : Socket) : Reply Socket (Except Failure Unit) :=
  ⟨.ok (), { s with closed := true }, [.close (.ok ())]⟩

/-- Set a bound, which may not be nothing. -/
def bound (s : Socket) (ms : Option Nat) (set : Socket)
    (event : Except Failure Unit → Event) : Reply Socket (Except Failure Unit) :=
  if ms = some 0 then ⟨.error (.io .zeroTimeout), s, [event (.error (.io .zeroTimeout))]⟩
  else ⟨.ok (), set, [event (.ok ())]⟩

/-- The peer sends bytes. -/
def peerWrite (s : Socket) (bytes : Bytes) : Socket := { s with inbound := s.inbound ++ bytes }

/-- The peer stops sending. -/
def peerEnd (s : Socket) : Socket := { s with peerEnded := true }

/-- The peer reads bytes. -/
def peerRead (s : Socket) (n : Nat) : Bytes × Socket :=
  (s.outbound.take n, { s with outbound := s.outbound.drop n })

/-- No write is interrupted. -/
theorem not_isInterrupted_write {s : Socket} {bytes : Bytes} {failure : Failure}
    (h : (s.write bytes).result = .error failure) : failure.isInterrupted = false := by
  unfold write at h
  split at h
  · obtain rfl := Except.error.inj h
    rfl
  · cases h

instance : Transport Socket where
  write := write
  flush s := ⟨.ok (), s, [.flush (.ok ())]⟩
  read := read
  close := close
  setReadTimeout s ms := s.bound ms { s with readTimeout := ms } (.setReadTimeout ms)
  setWriteTimeout s ms := s.bound ms { s with writeTimeout := ms } (.setWriteTimeout ms)
  patience _ := 0
  patience_write_le _ _ := Nat.le_refl 0
  patience_write_lt h hi := absurd hi (by rw [not_isInterrupted_write h]; decide)

end Socket

end SplitHello
