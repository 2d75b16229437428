import FederatedSearch.Cache.KeySets
import FederatedSearch.Collector.Basic

/-!
# Join keys

The join keys in a field of all matching documents form a set, which is gathered segment by segment.
If the keys of a segment are remembered for the query then the segment is skipped, and the
remembered keys are taken instead.

## Main definitions

* `joinKeys` — the collector that remembers nothing
* `rememberedJoinKeys` — the collector that reads and extends what is remembered
-/

namespace FederatedSearch

/-- The keys of the segments done so far, and those of the current segment. -/
structure KeysSoFar where
  found : KeyBits := .empty
  current : KeyBits := .empty
  /-- Whether a segment is open. Documents that come at any other time are left out. -/
  isOpen : Bool := false
deriving Inhabited, Repr

namespace KeysSoFar

def openSegment (k : KeysSoFar) : KeysSoFar := { k with current := .empty, isOpen := true }

def add? (k : KeysSoFar) (key : JoinKey) : Except Failure KeysSoFar := do
  if k.isOpen && key != noKey then
    let (current, _) ← k.current.insert? key
    return { k with current }
  else return k

/-- Add the keys of a whole segment. -/
def addSegment (k : KeysSoFar) (keys : KeyBits) : KeysSoFar :=
  { k with found := k.found.union keys }

/-- End the current segment, whose keys are `keys`. -/
def closeSegment (k : KeysSoFar) (keys : KeyBits) : KeysSoFar :=
  { found := k.found.union keys, current := .empty, isOpen := false }

/-- The keys of all groups, in a set as wide as the widest of theirs. -/
def unite (groups : List KeyBits) : KeyBits :=
  let width := (groups.map (·.capacity)).foldl max 0
  groups.foldl .union (.withCapacity width)

end KeysSoFar

/-- Collect the join keys in a field. -/
def joinKeys (field : String) : Collector Unit KeysSoFar KeyBits KeyBits where
  board := ()
  start := pure {}
  bind _ k := pure { fields := [field], state := k.openSegment }
  collect bound hit k := .ofExcept (k.add? (bound.key field hit.doc))
  endSegment _ k := pure (k.closeSegment k.current)
  finish k := pure k.found
  merge _ partials := .ok (KeysSoFar.unite partials)

/-- What is remembered for the query of a search, and the statistics. -/
structure KeyMemory where
  keys : SegmentKeys := {}
  stats : CacheStats := {}

namespace KeyMemory

/-- The keys remembered for a segment. Whether there are any is noted in the statistics. -/
def look (m : KeyMemory) (live : Liveness) (segment : Segment) : Option KeyBits × KeyMemory :=
  match m.keys.get? live segment.identity () with
  | some keys => (some keys, { m with stats := m.stats.hit })
  | none => (none, { m with stats := m.stats.miss })

/-- Remember the keys of a segment, unless some are remembered already; those count then. -/
def keep (m : KeyMemory) (live : Liveness) (segment : Segment) (keys : KeyBits) :
    KeyBits × KeyMemory :=
  let (kept, map) := m.keys.insertIfAbsent live segment.identity () keys
  (kept, { m with keys := map })

end KeyMemory

/-- Collect the join keys in a field, with the help of what is remembered. -/
def rememberedJoinKeys (live : Liveness) (field : String) (memory : KeyMemory) :
    Collector KeyMemory KeysSoFar KeyBits KeyBits where
  board := memory
  start := pure {}
  bind placed k := do
    match ← .update fun m => m.look live placed.segment with
    | some keys => return { visit := .skip, state := k.addSegment keys }
    | none => return { fields := [field], state := k.openSegment }
  collect bound hit k := .ofExcept (k.add? (bound.key field hit.doc))
  endSegment bound k := do
    match bound.placed with
    | some placed =>
      let kept ← .update fun m => m.keep live placed.segment k.current
      return k.closeSegment kept
    | none => return k.closeSegment k.current
  finish k := pure k.found
  merge _ partials := .ok (KeysSoFar.unite partials)

end FederatedSearch
