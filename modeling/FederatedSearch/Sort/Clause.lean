import FederatedSearch.Collector.Basic
import FederatedSearch.Keys.DocTable
import FederatedSearch.Sort.Key

/-!
# Sort clauses

A sort clause is one level of a sort order, made ready for a search: it knows how to read the sort
key of a hit. The field it reads belongs to the hit itself or to a related document of another core,
which is found through the join key of the hit.

## Main definitions

* `SortReading` — how a value becomes a sort key
* `SortClause` — a clause; `SortClause.own?`, `SortClause.related?` make one for a `SortField`
* `SortClause.key` — the sort key of a hit
* `SortedHit` — a hit with its sort keys; `compareSorted` is the order of hits
-/

namespace FederatedSearch

/-- How the value of a field becomes a sort key, and what stands for a missing number. -/
inductive SortReading where
  | text
  | int (missing : Int64)
  | double (missing : Binary64)
  /-- The score of the hit, whatever the field. -/
  | score
deriving DecidableEq, Inhabited

namespace SortReading

/-- The reading of a sort field. A missing integer is the integer part of the missing number. -/
def ofField (f : SortField) : SortReading :=
  match f.valueType with
  | .text => .text
  | .int => .int f.missing.numeric.truncate
  | .double => .double f.missing.numeric
  | .score => .score

/-- The key of a document without a value. -/
def missingKey : SortReading → SortKey
  | text => .text none
  | int missing => .int missing
  | double missing => .double missing
  | score => .double .zero

/-- The key of a value, if there is one. -/
def keyOf (r : SortReading) (score : Binary32) (value : Option FieldValue) : SortKey :=
  match r with
  | text => .text (value.map (·.form))
  | int missing => .int ((value.bind (·.toInt?)).getD missing)
  | double missing => .double ((value.bind (·.toDouble?)).getD missing)
  | .score => .double score.toDouble

/-- The key of a hit in a segment. The segment is not looked at for a score. -/
def read (r : SortReading) (field : String) (segment : Segment) (hit : Hit) :
    Except Failure SortKey :=
  match r with
  | .score => .ok (r.keyOf hit.score none)
  | r => (segment.value field hit.doc).map (r.keyOf hit.score)

end SortReading

/-- Where the value of a sort field is found. -/
inductive SortSource where
  /-- In the hit itself. -/
  | own
  /-- In the document of another core that the join key of the hit leads to. -/
  | related (keyField : String) (table : DocTable) (other : Snapshot)

/-- One level of a sort order. -/
structure SortClause where
  order : SortOrder := .ascending
  missing : MissingValue := .textLast
  field : String
  reading : SortReading
  source : SortSource := .own

namespace SortClause

/-- The clause of a field of the searched core. -/
def own? (f : SortField) : Except Failure SortClause :=
  if f.field.isEmpty && f.valueType != .score then .error (.invalidRequest .namelessSortField)
  else .ok { order := f.order, missing := f.missing, field := f.field, reading := .ofField f }

/-- The clause of a field of another core. Only the searched core has scores. -/
def related? (f : SortField) (keyField : String) (table : DocTable) (other : Snapshot) :
    Except Failure SortClause :=
  if f.valueType = .score then .error (.invalidRequest (.foreignScore other.core))
  else .ok {
    order := f.order, missing := f.missing, field := f.field, reading := .ofField f
    source := .related keyField table other }

/-- The key field that the clause goes through. -/
def keyFields (c : SortClause) : List String :=
  match c.source with
  | .own => []
  | .related keyField _ _ => [keyField]

/-- The sort key of a hit in a bound segment. A hit that leads to no document of the other core has
the key of a missing value. -/
def key (c : SortClause) (bound : Bound) (placed : Placed) (hit : Hit) : Except Failure SortKey :=
  match c.source with
  | .own => c.reading.read c.field placed.segment hit
  | .related keyField table other =>
    let key := bound.key keyField hit.doc
    if key = noKey then .ok c.reading.missingKey
    else
      match (table.get? key).bind other.locate with
      | some (related, number) => c.reading.read c.field related.segment ⟨number, .zero⟩
      | none => .ok c.reading.missingKey

def compare (c : SortClause) (a b : SortKey) : Ordering := a.compareUnder c.order c.missing b

end SortClause

/-! ### Sorted hits -/

/-- A hit with the keys it is sorted by, one for each clause. -/
structure SortedHit where
  hit : Hit
  keys : List SortKey
deriving DecidableEq, Inhabited, Repr

/-- Compare lists of keys clause by clause. -/
def compareKeys : List SortClause → List SortKey → List SortKey → Ordering
  | c :: cs, a :: as, b :: bs => (c.compare a b).then (compareKeys cs as bs)
  | _, _, _ => .eq

/-- The order of hits under a list of clauses. Hits that all clauses leave tied are in relevance
order. -/
def compareSorted (clauses : List SortClause) (a b : SortedHit) : Ordering :=
  (compareKeys clauses a.keys b.keys).then (a.hit.compareRelevance b.hit)

/-- Put a hit in its place among sorted hits, of which the last comes first: behind every hit at the
end that it precedes. -/
def insertSorted (clauses : List SortClause) (hit : SortedHit) : List SortedHit → List SortedHit
  | [] => [hit]
  | h :: rest =>
    if compareSorted clauses hit h = .lt then h :: insertSorted clauses hit rest
    else hit :: h :: rest

/-- Hits in the order of a list of clauses. Hits that are tied keep the order they came in. -/
def sortHits (clauses : List SortClause) (hits : List SortedHit) : List SortedHit :=
  (hits.foldl (fun sorted hit => insertSorted clauses hit sorted) []).reverse

/-- The first hits under a list of clauses. -/
def firstSorted (clauses : List SortClause) (limit : Nat) (hits : List SortedHit) :
    List SortedHit :=
  (sortHits clauses hits).take limit

end FederatedSearch
