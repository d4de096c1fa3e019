import SplitHello.Policy.Interval

/-!
# Policy/Basic — how the first client hello is cut up

The bytes ahead of the host name, the host name and the bytes after it are each cut into fragments
with sizes from an interval of their own; a pause from a fourth interval follows every fragment.
-/

namespace SplitHello

/-- How the first client hello is cut up. -/
structure Policy where
  /-- Sizes of the fragments ahead of the host name. -/
  beforeSni : Interval
  /-- Sizes of the fragments of the host name. -/
  sni : Interval
  /-- Sizes of the fragments after the host name. -/
  afterSni : Interval
  /-- Milliseconds of the pause after a fragment. -/
  delayMs : Interval
  deriving DecidableEq

namespace Policy

/-- The default policy: all up to the host name in one write, then one or two bytes a write, with
10 to 20 milliseconds between them. -/
def default : Policy where
  beforeSni := .single 2000
  sni := ⟨1, 2, by decide⟩
  afterSni := ⟨1, 2, by decide⟩
  delayMs := ⟨10, 20, by decide⟩

/-- The policy that four texts denote; the first that denotes none is the error. -/
def ofTexts (beforeSni sni afterSni delayMs : String) :
    Except PolicyError Policy := do
  let beforeSni ← Interval.ofText beforeSni
  let sni ← Interval.ofText sni
  let afterSni ← Interval.ofText afterSni
  let delayMs ← Interval.ofText delayMs
  return { beforeSni, sni, afterSni, delayMs }

/-- The policy with another interval for the pauses. -/
def withDelay (policy : Policy) (delayMs : Interval) : Policy :=
  { policy with delayMs }

end Policy

end SplitHello
