import FederatedSearch.Failure
import FederatedSearch.Keys.KeyTable
import FederatedSearch.Score.Code

/-!
# Scores by join key

A rank table holds the scores that a rank query gave to the documents of another core, under the
join keys of those documents. The first score recorded for a key counts.

## Main definitions

* `RankTable` — the table; `score`, `contains`, `record?`
-/

namespace FederatedSearch

/-- Score codes by join key. -/
abbrev RankTable := KeyTable ScoreCode

namespace RankTable

/-- The greatest key that is admitted: two bytes are needed per key. -/
def maxKey : JoinKey := maxKeyFor 2

/-- The score of a key; 0 if there is none. -/
def score (t : RankTable) (key : JoinKey) : Binary32 :=
  match t.get? key with
  | some code => code.toScore
  | none => .zero

def contains (t : RankTable) (key : JoinKey) : Bool := (t.get? key).isSome

/-- Record a score for a key that has none. -/
def record? (t : RankTable) (key : JoinKey) (score : Binary32) : Except Failure RankTable :=
  if maxKey < key then .error (.keyTooLarge (.score key maxKey))
  else .ok (t.record key (.ofScore score))

end RankTable

end FederatedSearch
