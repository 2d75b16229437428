import FederatedSearch.Collector.Basic
import FederatedSearch.Keys.DocTable
import FederatedSearch.Score.RankTable

/-!
# Tables of related documents

A search of another core can note, under the join keys of its matches, how they scored or which
documents they are. Matches without a key are left out. Of several matches with one key the first
counts, in the order of the segments within a group and of the groups.

## Main definitions

* `rankScores` — the collector of scores by key
* `firstDocs` — the collector of documents by key
-/

namespace FederatedSearch

/-- Collect the scores of matches by their keys in a field. -/
def rankScores (field : String) : Collector Unit RankTable RankTable RankTable where
  needsScores := true
  board := ()
  start := pure .empty
  bind _ t := pure { fields := [field], state := t }
  collect bound hit t :=
    let key := bound.key field hit.doc
    if key = noKey then pure t else .ofExcept (RankTable.record? t key hit.score)
  finish := pure
  merge _ partials := .ok (KeyTable.mergeAll partials)

/-- Collect the numbers of matching documents by their keys in a field. -/
def firstDocs (field : String) : Collector Unit DocTable DocTable DocTable where
  board := ()
  start := pure .empty
  bind _ t := pure { fields := [field], state := t }
  collect bound hit t :=
    let key := bound.key field hit.doc
    if key = noKey then pure t
    else .ofExcept (DocTable.record? t key (bound.absolute hit.doc))
  finish := pure
  merge _ partials := .ok (KeyTable.mergeAll partials)

end FederatedSearch
