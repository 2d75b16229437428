import FederatedSearch.Index.Segment

/-!
# Snapshots

A snapshot is the list of segments of a core at one time. Its documents are numbered through all
segments: the number of a document is its number in its segment plus the sizes of the segments
before it.

## Main definitions

* `Core` — a named list of segments
* `Placed` — a segment with its place in a snapshot
* `Snapshot.ofCore`, `locate`, `stored`
-/

namespace FederatedSearch

/-- The published state of a core. -/
structure Core where
  name : String
  segments : List Segment

/-- A segment at its place in a snapshot. -/
structure Placed where
  /-- The position among the segments. -/
  ord : Nat
  /-- The number of the first document of the segment. -/
  base : Nat
  segment : Segment

/-- Give each segment its place, starting from position `ord` and number `base`. -/
def placeFrom (ord base : Nat) : List Segment → List Placed
  | [] => []
  | s :: rest => ⟨ord, base, s⟩ :: placeFrom (ord + 1) (base + s.size) rest

/-- The segments of a core at one time. -/
structure Snapshot where
  core : String
  segments : List Placed

namespace Snapshot

variable (s : Snapshot)

def ofSegments (core : String) (segments : List Segment) : Snapshot :=
  ⟨core, placeFrom 0 0 segments⟩

def ofCore (c : Core) : Snapshot := ofSegments c.name c.segments

def liveCount : Nat := s.segments.foldl (fun count placed => count + placed.segment.liveCount) 0

/-- The segment that has a document, and the number of the document in it. Segments are in the order
of their first documents, so it is the last one that starts at the document or before it. -/
def locate (doc : Nat) : Option (Placed × Nat) := do
  let placed ← (s.segments.takeWhile (·.base ≤ doc)).getLast?
  let number := doc - placed.base
  if number < placed.segment.size then some (placed, number) else none

/-- A document as it was added. -/
def stored (doc : Nat) : Except Failure Document :=
  match s.locate doc with
  | some (placed, number) => placed.segment.stored number
  | none => .error (.segment s.core (.outsideSnapshot doc))

def identities : List Identity := s.segments.map (·.segment.identity)

end Snapshot

end FederatedSearch
