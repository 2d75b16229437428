import FederatedSearch.Index.Identity

/-!
# Memory bound to segments

A `SegmentMap` remembers values under a segment identity and a further key, for as long as the
segment lives. Entries of segments that are gone cannot be read any more; they are dropped when
the map has grown to a threshold, which is then set to twice the number of entries that remain.

The first value stored for a live segment and key stays.

## Main definitions

* `Liveness` — which segments live
* `SegmentMap` — the map; `get?`, `insertIfAbsent`, `purge`
-/

namespace FederatedSearch

/-- Whether the segment of an identity is still held by anyone. -/
abbrev Liveness := Identity → Bool

/-- The least threshold of a `SegmentMap`. -/
def minPurgeAt : Nat := 64

/-- Values under a segment identity and a key. -/
structure SegmentMap (κ α : Type) where
  entries : List ((Identity × κ) × α) := []
  /-- The number of entries at which the next insertion drops those of dead segments. -/
  purgeAt : Nat := minPurgeAt

namespace SegmentMap

variable {κ α : Type} [DecidableEq κ]

def empty : SegmentMap κ α := {}

instance : Inhabited (SegmentMap κ α) := ⟨empty⟩

/-- The value stored for a live segment and a key. -/
def get? (m : SegmentMap κ α) (live : Liveness) (id : Identity) (key : κ) : Option α :=
  if live id then m.entries.lookup (id, key) else none

/-- Drop the entries of dead segments. -/
def purge (m : SegmentMap κ α) (live : Liveness) : SegmentMap κ α :=
  { m with entries := m.entries.filter fun e => live e.1.1 }

/-- Purge a map that has grown to its threshold, and set the next threshold. -/
def makeRoom (m : SegmentMap κ α) (live : Liveness) : SegmentMap κ α :=
  if m.purgeAt ≤ m.entries.length then
    let m := m.purge live
    { m with purgeAt := max (2 * m.entries.length) minPurgeAt }
  else m

/-- Store a value unless there is one already, and give back the value that is kept. -/
def insertIfAbsent (m : SegmentMap κ α) (live : Liveness) (id : Identity) (key : κ) (value : α) :
    α × SegmentMap κ α :=
  let m := m.makeRoom live
  match m.entries.lookup (id, key) with
  | some kept => (kept, m)
  | none => (value, { m with entries := ((id, key), value) :: m.entries })

/-- The number of entries of live segments. -/
def liveCount (m : SegmentMap κ α) (live : Liveness) : Nat :=
  m.entries.countP fun e => live e.1.1

end SegmentMap

end FederatedSearch
