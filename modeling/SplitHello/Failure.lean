/-!
# Failure — how a call to the outside fails

A call to a byte source or a transport can end in an I/O error, which has a kind and a text, or be
aborted.  An interrupted call has done nothing and is worth repeating; no other failure is.
-/

namespace SplitHello

/-- The kinds of I/O error. -/
inductive IoErrorKind where
  | interrupted
  | connectionReset
  | brokenPipe
  | wouldBlock
  | timedOut
  | unexpectedEof
  | writeZero
  | invalidInput
  | notConnected
  | unsupported
  | other
  deriving DecidableEq

/-- An I/O error. -/
structure IoError where
  /-- What kind of error it is. -/
  kind : IoErrorKind
  /-- The error in words. -/
  message : String
  deriving DecidableEq

namespace IoError

/-- The source ended inside a record. -/
def sourceEnded : IoError := ⟨.unexpectedEof, "source ended before the record was complete"⟩

/-- The transport took no byte of a fragment. -/
def acceptedNothing : IoError := ⟨.writeZero, "transport accepted no bytes"⟩

/-- A write took no byte of what was to be written whole. -/
def notWrittenWhole : IoError := ⟨.writeZero, "failed to write whole buffer"⟩

/-- The transport does not do what is asked. -/
def unsupported : IoError := ⟨.unsupported, "unsupported"⟩

end IoError

/-- How a call to the outside fails. -/
inductive Failure where
  /-- The call returns an error. -/
  | io (error : IoError)
  /-- The call does not return. -/
  | abort
  deriving DecidableEq

/-- Whether a failed call is worth repeating: it was interrupted before it did anything. -/
def Failure.isInterrupted : Failure → Bool
  | io error => error.kind == .interrupted
  | abort => false

@[simp] theorem Failure.isInterrupted_abort : isInterrupted abort = false := rfl

/-- Whether a call with this answer did not return, by what its error comes from. -/
def aborts {ε α : Type} (source : ε → Failure) : Except ε α → Bool
  | .error e => source e == .abort
  | .ok _ => false

end SplitHello
