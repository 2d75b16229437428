import FederatedSearch.Collector.Basic
import FederatedSearch.Hit.BestPerKey
import FederatedSearch.Hit.TopHits

/-!
# Collapsed hits

Of the hits that share a join key only the most relevant one is kept; hits without a key are all
kept. The records of the keys are shared by all groups of a search, which contend for them, while each
group keeps its best hits without a key, and their number, for itself.

## Main definitions

* `Collapsed` — the best hits, and how many there are without a limit
* `collapsing` — the collector
-/

namespace FederatedSearch

/-- The best hits after collapsing. -/
structure Collapsed where
  hits : List Hit
  /-- The number of keys plus the number of hits without a key. -/
  groups : Nat
deriving DecidableEq, Inhabited, Repr

/-- The hits without a key: the best of them, and how many there are. -/
structure Unkeyed where
  best : TopHits
  count : Nat := 0
deriving Inhabited, Repr

/-- Collect the best hits, at most one for each key of a field and `limit` in all. Each update of a
record may try `budget` exchanges, and the search fails if one of them uses these up. -/
def collapsing (field : String) (limit budget : Nat) :
    Collector BestPerKey Unkeyed Unkeyed Collapsed where
  needsScores := true
  board := .empty budget
  start := pure { best := .empty limit }
  bind _ l := pure { fields := [field], state := l }
  collect bound hit l := do
    let key := bound.key field hit.doc
    let hit := bound.place hit
    if key = noKey then return { best := l.best.insert hit, count := l.count + 1 }
    else
      BestPerKey.contend key hit
      return l
  finish := pure
  merge best partials := .ok {
    hits :=
      let top := partials.foldl (fun top l => top.insertAll l.best.hits) (TopHits.empty limit)
      (top.insertAll best.hits).hits
    groups := partials.foldl (fun groups l => groups + l.count) best.size }

end FederatedSearch
