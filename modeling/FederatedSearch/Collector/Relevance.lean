import FederatedSearch.Collector.Basic
import FederatedSearch.Hit.TopHits

/-!
# The most relevant hits

Each group keeps its best hits, and the best of those are the best of all. Documents are numbered
through the snapshot, so that ties are resolved in the same way however the segments are grouped.
-/

namespace FederatedSearch

/-- Collect the best hits, at most `limit`. -/
def mostRelevant (limit : Nat) : Collector Unit TopHits (List Hit) (List Hit) where
  needsScores := true
  board := ()
  start := pure (.empty limit)
  bind _ top := pure { state := top }
  collect bound hit top := pure (top.insert (bound.place hit))
  finish top := pure top.hits
  merge _ partials := .ok ((TopHits.empty limit).insertAll partials.flatten).hits

end FederatedSearch
