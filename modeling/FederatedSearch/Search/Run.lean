import FederatedSearch.Cache.KeySets
import FederatedSearch.Collector.JoinKeys
import FederatedSearch.Index.Matching
import FederatedSearch.Search.Gathering
import FederatedSearch.Search.Partition

/-!
# Searches

A search runs a query over all segments of a snapshot and has a collector take in the matches. The
segments are spread over groups, each group goes through its segments in order, and the results of
the groups are gathered and merged.

The key columns that a collector asks for are loaded through those that are remembered.

## Main definitions

* `Workshop` — where searches run
* `Collector.openSegment`, `runSegment`, `runGroup` — the parts of a search
* `Collector.searchGroups` — a search of given groups of segments
* `Collector.search` — a search on remembered columns, with a board of its own
* `Caches.collectKeys` — the join keys of a query, with the help of what is remembered
-/

namespace FederatedSearch

/-- How searches are run. -/
structure Workshop where
  /-- The greatest number of groups. -/
  concurrency : Nat
  live : Liveness

/-- What the groups of a search work on: the remembered columns and the board. -/
abbrev Workbench (Board : Type) := KeyColumns × Board

/-- Load the column of each field. -/
def loadColumns (live : Liveness) (segment : Segment) :
    List String → Process KeyColumns (List (String × KeyColumn))
  | [] => return []
  | field :: rest => do
    let column ← KeyColumns.load live segment field
    return (field, column) :: (← loadColumns live segment rest)

variable [PatternEngines]

namespace Collector

variable {B L P F : Type} (c : Collector B L P F) (w : Workshop)

/-- Bind a local state to a segment and load the key columns it asks for. -/
def openSegment (placed : Placed) (l : L) : Process (Workbench B) (Visit × Bound × L) := do
  let binding ← (c.bind placed l).focus .second
  let columns ← (loadColumns w.live placed.segment binding.fields).focus .first
  let bound := ⟨some placed, fun field => (columns.lookup field).getD #[]⟩
  return (binding.visit, bound, binding.state)

/-- Take one segment through. -/
def runSegment (query : Query) (l : L) (placed : Placed) : Process (Workbench B) L := do
  let (visit, bound, l) ← c.openSegment w placed l
  match visit with
  | .skip => return l
  | .docs =>
    let hits ← .ofExcept (placed.segment.search query c.needsScores)
    let l ← hits.foldlM (fun l hit => (c.collect bound hit l).focus .second) l
    (c.endSegment bound l).focus .second

/-- Take the segments of a group through. -/
def runGroup (query : Query) (segments : List Placed) : Process (Workbench B) P := do
  let l ← c.start.focus .second
  let l ← segments.foldlM (c.runSegment w query) l
  (c.finish l).focus .second

/-- The groups of segments of a snapshot. -/
def groupsOf (snapshot : Snapshot) : List (List Placed) :=
  (partitionSegments snapshot.segments w.concurrency).map fun members =>
    members.filterMap (snapshot.segments[·]?)

/-- Search groups of segments, with the steps of the groups in the order of a schedule. -/
def searchGroups (schedule : Schedule) (core : String) (groups : List (List Placed)) (query : Query) :
    Act (Workbench B) F := do
  let partials ← Gathering.gather core schedule (groups.map (c.runGroup w query))
  Act.ofExcept (c.merge (← get).2 partials)

/-- Search a snapshot. -/
def searchOn (schedule : Schedule) (snapshot : Snapshot) (query : Query) : Act (Workbench B) F :=
  c.searchGroups w schedule snapshot.core (groupsOf w snapshot) query

/-- Search with a new board. -/
def search (schedule : Schedule) (snapshot : Snapshot) (query : Query) : Act KeyColumns F :=
  Act.ofUpdate fun columns =>
    let (r, columns, _) := (c.searchOn w schedule snapshot query).result (columns, c.board)
    (r, columns)

end Collector

namespace Caches

variable {B L P F : Type}

/-- Search with the remembered columns. -/
def search (w : Workshop) (schedule : Schedule) (snapshot : Snapshot) (query : Query)
    (c : Collector B L P F) : Act Caches F :=
  Act.ofUpdate fun caches =>
    let (r, columns) := (c.search w schedule snapshot query).result caches.columns
    (r, { caches with columns })

/-- The join keys in a field of all matches of a query. What is remembered for the query and the
field is used and extended, also by a search that fails. -/
def collectKeys (w : Workshop) (schedule : Schedule) (snapshot : Snapshot) (query : Query)
    (field : String) : Act Caches KeyBits :=
  Act.ofUpdate fun caches =>
    let (remembered, keySets) := caches.keySets.memoryFor query field
    let c := rememberedJoinKeys w.live field ⟨remembered.keys, keySets.stats⟩
    let (r, columns, memory) :=
      (c.searchOn w schedule snapshot query).result (caches.columns, c.board)
    (r, { columns, keySets := keySets.store remembered.serial memory.keys memory.stats })

end Caches

end FederatedSearch
