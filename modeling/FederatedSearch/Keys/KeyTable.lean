import FederatedSearch.Keys.Growth

/-!
# Tables indexed by join key

A `KeyTable` records at most one value per key. The first value recorded for a key stays: later
ones are ignored, also when tables are merged, where the earlier table goes first.

## Main definitions

* `KeyTable.get?`, `record`, `fill`
* `KeyTable.mergeAll` — several tables in order of precedence
-/

namespace FederatedSearch

/-- One slot per key, up to a length that grows with the keys recorded. -/
structure KeyTable (α : Type) where
  slots : Array (Option α) := #[]
deriving DecidableEq, Inhabited, Repr

namespace KeyTable

variable {α : Type}

def empty : KeyTable α := {}

def get? (t : KeyTable α) (key : JoinKey) : Option α := t.slots.getD key none

/-- Lengthen the table to at least `length` slots. -/
def extend (t : KeyTable α) (length : Nat) : KeyTable α :=
  ⟨t.slots ++ Array.replicate (length - t.slots.size) none⟩

/-- Record a value for a key that has none. -/
def record (t : KeyTable α) (key : JoinKey) (value : α) : KeyTable α :=
  let t := t.extend (grownLength t.slots.size (key + 1))
  ⟨t.slots.modify key (·.or (some value))⟩

/-- Fill empty slots from another table. -/
def fill (t other : KeyTable α) : KeyTable α :=
  ⟨(t.extend other.slots.size).slots.mapIdx fun i v => v.or (other.get? i)⟩

/-- Of several tables the first one with a value for a key decides. -/
def mergeAll (tables : List (KeyTable α)) : KeyTable α := tables.foldl fill empty

end KeyTable

end FederatedSearch
