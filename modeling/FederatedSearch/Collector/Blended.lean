import FederatedSearch.Collector.Basic
import FederatedSearch.Score.Blend
import FederatedSearch.Score.RankTable

/-!
# Blended scores

A collector can be made to see blended scores in place of those that the search gives. The other
scores of a hit are looked up by its join keys in the tables of the rank queries. Without rank
queries nothing changes.

## Main definitions

* `RankSource` — the scores of one rank query, and the field that leads to them
* `Collector.blended` — a collector that sees blended scores
-/

namespace FederatedSearch

/-- The scores of a rank query, by the keys in a field of the result core. -/
structure RankSource where
  field : String
  table : RankTable
deriving Inhabited

namespace Collector

variable {B L P F : Type}

/-- Let a collector see blended scores. -/
def blended (inner : Collector B L P F) (ranks : List RankSource) (ratio : Binary32) :
    Collector B L P F :=
  { inner with
    needsScores := !ranks.isEmpty || inner.needsScores
    bind := fun placed l => do
      let b ← inner.bind placed l
      return match b.visit with
        | .docs => { b with fields := b.fields ++ ranks.map (·.field) }
        | .skip => b
    collect := fun bound hit l =>
      if ranks.isEmpty then inner.collect bound hit l
      else
        let others := ranks.map fun r => RankTable.score r.table (bound.key r.field hit.doc)
        inner.collect bound { hit with score := blend hit.score ratio others } l }

end Collector

end FederatedSearch
