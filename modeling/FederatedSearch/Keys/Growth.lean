/-!
# Growth of key-indexed storage

Structures indexed by join key keep one slot per key. They grow by a quarter at a time, so that
adding keys one by one costs a constant amortised time, and they refuse keys for which the slots
alone would need more than `maxTableBytes`.

## Main definitions

* `grownLength` — the length to grow to
* `maxKeyFor` — the greatest key for a slot width
-/

namespace FederatedSearch

/-- A key relates documents of different cores. Key 0 means that there is no related document. -/
abbrev JoinKey := Nat

def noKey : JoinKey := 0

/-- The storage that the slots up to an admissible key may need. -/
def maxTableBytes : Nat := 0x80000000

/-- The greatest key of a table with `width` bytes per key. -/
def maxKeyFor (width : Nat) : JoinKey := maxTableBytes / width - 1

/-- The greatest key of a bitset, whose slots are single bits. -/
def maxKey : JoinKey := maxTableBytes * 8 - 1

/-- The length to grow a buffer to so that `needed` slots fit: a quarter more than before, or what
is needed if that is more. Buffers never shrink. -/
def grownLength (current needed : Nat) : Nat :=
  if needed ≤ current then current else max needed (current * 5 / 4)

theorem le_grownLength_left (current needed : Nat) : current ≤ grownLength current needed := by
  unfold grownLength; split <;> omega

theorem le_grownLength_right (current needed : Nat) : needed ≤ grownLength current needed := by
  unfold grownLength; split <;> omega

end FederatedSearch
