import SplitHello.Fragment
import SplitHello.Transport

/-!
# Fragment/Writer — zones written fragment by fragment

A `FragmentWriter` writes one zone after the other.  A zone is cut into fragments; each is delivered
whole before the next one begins, and the pause drawn for it follows.  The first fragment that
cannot be delivered ends the zone.  `written` counts the bytes that were accepted, in all zones,
whether or not their fragment was delivered whole.

* `not_isInterrupted_writeZone` — no zone ends in an interruption;
* `patience_writeZone_le` — writing a zone makes no transport more patient.
-/

namespace SplitHello

/-- A write that failed part of the way. -/
structure PartialWrite where
  /-- How many bytes were accepted before the failure. -/
  written : Nat
  /-- What failed. -/
  source : Failure
  deriving DecidableEq

/-- A failed write in words. -/
def PartialWrite.message (failed : PartialWrite) : String :=
  s!"transport write failed after {failed.written} bytes"

/-- Writes zones to a transport. -/
structure FragmentWriter (τ : Type) where
  /-- Where the zones go. -/
  transport : τ
  /-- What sizes and pauses are drawn from. -/
  words : Words
  /-- The pauses, in milliseconds. -/
  delayMs : Interval
  /-- How many bytes were accepted. -/
  written : Nat

namespace FragmentWriter

open Transport

variable {τ : Type} [Transport τ]

/-- The pause after a fragment, unless it is nothing. -/
def pauseAfter (x : Fragment) : Journal := if x.delay = 0 then [] else [.pause x.delay]

/-- The note that a fragment begins, the `index`-th of its zone. -/
def begins (zone : String) (index position : Nat) (x : Fragment) : Event :=
  .note (.writingFragment zone index position x.bytes.length x.delay)

/-- The writer once a fragment was tried. -/
def advance (writer : FragmentWriter τ) (x : Fragment) (reply : Reply τ (Nat × Option Failure)) :
    FragmentWriter τ :=
  { writer with
    transport := reply.state, words := x.words, written := writer.written + reply.result.1 }

/-- Write the fragments of a zone of which `index` are written, with `position` bytes. -/
def writeFragments (zone : String) (index position : Nat) (writer : FragmentWriter τ) :
    List Fragment → Reply (FragmentWriter τ) (Option Failure)
  | [] => ⟨none, writer, [.note (.zoneWritten zone index position)]⟩
  | x :: later =>
      let reply := deliver .acceptedNothing writer.transport x.bytes
      let begun := begins zone (index + 1) position x :: reply.journal
      match reply.result.2 with
      | some failure => ⟨some failure, writer.advance x reply, begun⟩
      | none =>
          (writeFragments zone (index + 1) (position + x.bytes.length) (writer.advance x reply)
            later).after (begun ++ pauseAfter x)

/-- Write a zone with fragments of some sizes. -/
def writeZone (writer : FragmentWriter τ) (zone : String) (bytes : Bytes) (sizes : Interval) :
    Reply (FragmentWriter τ) (Option Failure) :=
  writer.writeFragments zone 0 0 (Fragment.cut sizes writer.delayMs writer.words bytes)

/-! ## Interruptions -/

theorem not_isInterrupted_writeFragments {zone : String} {failure : Failure} :
    ∀ {index position : Nat} {writer : FragmentWriter τ} {fragments : List Fragment},
      (writer.writeFragments zone index position fragments).result = some failure →
        failure.isInterrupted = false
  | _, _, _, [], h => by cases h
  | index, position, writer, x :: later, h => by
      unfold writeFragments at h
      dsimp only at h
      split at h
      · rename_i f hf
        obtain rfl := Option.some.inj h
        exact not_isInterrupted_deliver (by decide) hf
      · exact not_isInterrupted_writeFragments h

/-- **No zone ends in an interruption.** -/
theorem not_isInterrupted_writeZone {writer : FragmentWriter τ} {zone : String} {bytes : Bytes}
    {sizes : Interval} {failure : Failure}
    (h : (writer.writeZone zone bytes sizes).result = some failure) :
    failure.isInterrupted = false :=
  not_isInterrupted_writeFragments h

theorem patience_writeFragments_le (zone : String) :
    ∀ (index position : Nat) (writer : FragmentWriter τ) (fragments : List Fragment),
      patience (writer.writeFragments zone index position fragments).state.transport ≤
        patience writer.transport
  | _, _, _, [] => Nat.le_refl _
  | index, position, writer, x :: later => by
      unfold writeFragments
      dsimp only
      split
      · exact patience_deliver_le _ _ _
      · exact Nat.le_trans (patience_writeFragments_le zone _ _ _ later)
          (patience_deliver_le _ _ _)

/-- **Writing a zone makes no transport more patient.** -/
theorem patience_writeZone_le (writer : FragmentWriter τ) (zone : String) (bytes : Bytes)
    (sizes : Interval) :
    patience (writer.writeZone zone bytes sizes).state.transport ≤ patience writer.transport :=
  patience_writeFragments_le zone 0 0 writer _

end FragmentWriter

end SplitHello
