/-!
# Words — an endless row of random words

Random choices are made from an endless row of 64-bit words, taken one after the other.  The row is
a function, so that what a choice depends on is in plain sight, and `drawn` says how far it has been
used.
-/

namespace SplitHello

/-- A row of random words, used up to some point. -/
structure Words where
  /-- The words, counted from 0. -/
  word : Nat → UInt64
  /-- How many of them have been drawn. -/
  drawn : Nat

namespace Words

/-- The next word, and the row with it drawn. -/
def next (words : Words) : UInt64 × Words :=
  (words.word words.drawn, { words with drawn := words.drawn + 1 })

@[simp] theorem word_next (words : Words) : words.next.2.word = words.word := rfl

@[simp] theorem drawn_next (words : Words) : words.next.2.drawn = words.drawn + 1 := rfl

/-- The words of a list, over and over. -/
def cycle (list : List UInt64) : Words := ⟨fun n => list.getD (n % list.length) 0, 0⟩

/-- What one step adds to the state of a splittable mixing generator. -/
def mixGamma : UInt64 := 0x9e3779b97f4a7c15

/-- The word that a state of the generator is mixed into. -/
def mix (state : UInt64) : UInt64 :=
  let z := (state ^^^ (state >>> 30)) * 0xbf58476d1ce4e5b9
  let z := (z ^^^ (z >>> 27)) * 0x94d049bb133111eb
  z ^^^ (z >>> 31)

/-- The words of the generator with a seed: its state grows by the same amount before each word. -/
def splitMix (seed : UInt64) : Words :=
  ⟨fun n => mix (seed + UInt64.ofNat (n + 1) * mixGamma), 0⟩

end Words

end SplitHello
