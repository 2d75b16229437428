import FederatedSearch.Cache.KeyColumns
import FederatedSearch.Keys.KeyBits
import FederatedSearch.Query.Basic

/-!
# Remembered key sets

The join keys that a query finds in a field are remembered segment by segment, for the pairs of a
query and a field that were asked for most recently. Of two queries that are the same only one is
remembered.

## Main definitions

* `SegmentKeys` — the key sets of one query and field, by segment
* `KeySetCache` — the most recent pairs; `memoryFor`, `store`
* `CacheStats` — how often a segment was, or was not, remembered
-/

namespace FederatedSearch

/-- The keys that one query found in one field, by segment. -/
abbrev SegmentKeys := SegmentMap Unit KeyBits

/-- How many segments were answered from memory, and how many had to be searched. -/
structure CacheStats where
  hits : Nat := 0
  misses : Nat := 0
deriving DecidableEq, Inhabited, Repr

namespace CacheStats

def hit (s : CacheStats) : CacheStats := { s with hits := s.hits + 1 }

def miss (s : CacheStats) : CacheStats := { s with misses := s.misses + 1 }

/-- The share of segments answered from memory; 0 if there were no segments. -/
def hitRate (s : CacheStats) : Binary32 :=
  if s.hits + s.misses = 0 then .zero else .ratio s.hits (s.hits + s.misses)

end CacheStats

/-- What is remembered for a query and a field. -/
structure RememberedKeys where
  query : Query
  field : String
  /-- The serial number of this memory. A pair that is forgotten and asked for again starts a new
  one. -/
  serial : Nat
  keys : SegmentKeys

/-- The key sets of the most recent queries. -/
structure KeySetCache where
  /-- How many pairs of a query and a field are remembered. -/
  capacity : Nat
  /-- The remembered pairs, the most recent one first. -/
  recent : List RememberedKeys := []
  nextSerial : Nat := 0
  stats : CacheStats := {}

namespace KeySetCache

/-- An empty cache. At least one pair is remembered. -/
def empty (capacity : Nat) : KeySetCache := { capacity := max capacity 1 }

instance : Inhabited KeySetCache := ⟨empty 1⟩

def size (c : KeySetCache) : Nat := c.recent.length

/-- The memory of a query and a field, which becomes the most recent one. If there was none, an
empty one is made and the least recent one may have to go. -/
def memoryFor (c : KeySetCache) (query : Query) (field : String) : RememberedKeys × KeySetCache :=
  let isPair := fun r : RememberedKeys => r.query == query && r.field == field
  match c.recent.find? isPair with
  | some r => (r, { c with recent := r :: c.recent.filter fun s => !isPair s })
  | none =>
    let r : RememberedKeys := ⟨query, field, c.nextSerial, {}⟩
    (r, { c with recent := (r :: c.recent).take c.capacity, nextSerial := c.nextSerial + 1 })

/-- Write back the keys of a memory after they were used. -/
def store (c : KeySetCache) (serial : Nat) (keys : SegmentKeys) (stats : CacheStats) :
    KeySetCache :=
  { c with
    recent := c.recent.map fun r => if r.serial = serial then { r with keys := keys } else r
    stats := stats }

end KeySetCache

/-- Everything that an engine remembers between calls. -/
structure Caches where
  columns : KeyColumns := {}
  keySets : KeySetCache

instance : Inhabited Caches := ⟨{ keySets := default }⟩

/-- Caches that remember a number of queries. -/
def Caches.empty (queries : Nat) : Caches := { keySets := .empty queries }

end FederatedSearch
