import SplitHello.Policy.Interval
import SplitHello.Words

/-!
# Policy/Sample — a random number from an interval

A word is scaled to the size of the interval: the high half of their 128-bit product is the offset
from the least number.  If the low half is so large that the scaling is not even, a second word is
scaled too, and its high half decides by a carry whether the offset is one more.  An interval with
one number needs no word, and one with all numbers is the word itself.
-/

namespace SplitHello

/-- How many words there are. -/
def wordCount : Nat := UInt64.size

namespace Interval

/-- How many numbers an interval holds. -/
def size (iv : Interval) : Nat := iv.max.toNat - iv.min.toNat + 1

/-- An offset below `size`, drawn from one word or two. -/
def drawOffset (size : Nat) (words : Words) : Nat × Words :=
  let (word, words) := words.next
  let high := word.toNat * size / wordCount
  let low := word.toNat * size % wordCount
  if low ≤ wordCount - size then (high, words)
  else
    let (word, words) := words.next
    (high + (low + word.toNat * size / wordCount) / wordCount, words)

/-- A number from an interval. -/
def sample (iv : Interval) (words : Words) : UInt64 × Words :=
  if iv.isSingle then (iv.min, words)
  else if iv.size = wordCount then words.next
  else
    let (offset, words) := drawOffset iv.size words
    (UInt64.ofNat (iv.min.toNat + offset), words)

end Interval

end SplitHello
