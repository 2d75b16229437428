import FederatedSearch.Index.Snapshot

/-!
# Groups of segments

The segments of a search are spread over groups. Each segment in turn goes to the group with the
fewest live documents so far, the first such group if there are several. Groups that get nothing
are dropped.

## Main definitions

* `partition` — the groups, as lists of positions
* `partitionSegments` — the groups of segments by their live documents
-/

namespace FederatedSearch

/-- Positions of segments with the number of documents they hold together. -/
structure Group where
  members : List Nat := []
  load : Nat := 0
deriving DecidableEq, Inhabited, Repr

def leastLoad (groups : List Group) : Nat := (groups.map (·.load)).min?.getD 0

/-- Add an item to the first group with a load. -/
def addToGroup (load item size : Nat) : List Group → List Group
  | [] => []
  | g :: rest =>
    if g.load = load then ⟨g.members ++ [item], g.load + size⟩ :: rest
    else g :: addToGroup load item size rest

/-- Add an item to the group with the least load. -/
def balance (groups : List Group) (item size : Nat) : List Group :=
  addToGroup (leastLoad groups) item size groups

/-- Spread items of given sizes over at most `maxGroups` groups, and at least one. -/
def partition (sizes : List Nat) (maxGroups : Nat) : List (List Nat) :=
  let groups := sizes.zipIdx.foldl (fun groups (size, item) => balance groups item size)
    (List.replicate (max maxGroups 1) {})
  (groups.map (·.members)).filter (!·.isEmpty)

def partitionSegments (segments : List Placed) (maxGroups : Nat) : List (List Nat) :=
  partition (segments.map (·.segment.liveCount)) maxGroups

end FederatedSearch
