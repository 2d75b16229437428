import FederatedSearch.Keys.KeyBits

/-!
# Sets of keys and their complements

A `KeySet` is a bitset or the complement of one. Complements stay symbolic until two sets are
combined, so a negation costs nothing and needs no bound on the keys.

## Main definitions

* `KeySet.contains` — membership; key 0 belongs to complements only
* `KeySet.negate`, `meet`, `union` — exact for every key
* `KeySet.intersect` — the intersection as a plain set, bounded when both sides are complements
-/

namespace FederatedSearch

/-- The keys of `bits`, or all other keys if `inverted`. -/
structure KeySet where
  bits : KeyBits := .empty
  inverted : Bool := false
deriving Inhabited, Repr

namespace KeySet

instance : BEq KeySet := ⟨fun a b => a.bits == b.bits && a.inverted == b.inverted⟩

def plain (bits : KeyBits) : KeySet := ⟨bits, false⟩

def complement (bits : KeyBits) : KeySet := ⟨bits, true⟩

def negate (s : KeySet) : KeySet := { s with inverted := !s.inverted }

def contains (s : KeySet) (key : JoinKey) : Bool := s.bits.contains key != s.inverted

/-- The intersection as a plain set. The left bits are grown to the width of the right ones, and a
left complement is taken within that width: when both sides are complements, keys beyond the wider
one are lost. -/
def intersect (a b : KeySet) : KeySet :=
  let bits := a.bits.ensureCapacity b.bits.capacity
  let bits := if a.inverted then bits.flip else bits
  plain (if b.inverted then bits.diff b.bits else bits.inter b.bits)

/-- The intersection. Two complements meet in a complement, `¬A ∩ ¬B = ¬(A ∪ B)`, so that nothing
is lost. -/
def meet (a b : KeySet) : KeySet :=
  if a.inverted && b.inverted then complement (a.bits.union b.bits) else a.intersect b

/-- The union. If either side is a complement then so is the union, `A ∪ ¬B = ¬(B \ A)` and
`¬A ∪ ¬B = ¬(A ∩ B)`, so that no complement has to be spelled out. -/
def union (a b : KeySet) : KeySet :=
  match a.inverted, b.inverted with
  | false, false => plain (a.bits.union b.bits)
  | false, true => complement (b.bits.diff a.bits)
  | true, false => complement (a.bits.diff b.bits)
  | true, true => complement (a.bits.inter b.bits)

end KeySet

end FederatedSearch
