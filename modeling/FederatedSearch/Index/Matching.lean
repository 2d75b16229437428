import FederatedSearch.Hit.Basic
import FederatedSearch.Index.Segment
import FederatedSearch.Pattern.Engines
import FederatedSearch.Query.Basic

/-!
# Matching queries against a segment

A query is evaluated bottom-up to the set of documents that match it, deleted ones included, and a
score for each. Patterns are compiled by the engines that there are, before any document is looked at.
A leaf scores 1. A Boolean node adds up the scores of its `must` clauses and then of its `should` clauses,
where a clause that a document does not match adds 0.

Which documents a Boolean node admits depends on which clauses there are. With `must` or `filter`
clauses, all of those have to match and `should` is optional. Otherwise one of the `should` clauses
has to match, if there are any. Documents that match a `mustNot` clause are taken out at the end.

## Main definitions

* `Matches` — matching documents with their scores
* `IndexedSegment.matching` — the evaluation
* `Segment.search` — the live documents that match, in ascending order
-/

namespace FederatedSearch

/-- The documents that match a query, each with a score. Other documents score 0. -/
structure Matches where
  docs : DocSet
  score : Nat → Binary32

namespace Matches

/-- Every match of a leaf scores 1. -/
def uniform (docs : DocSet) : Matches :=
  ⟨docs, fun doc => if docs.contains doc then .one else .zero⟩

/-- The documents in all of some sets; `none` if there are no sets. -/
def common : List DocSet → Option DocSet
  | [] => none
  | docs :: rest => some (rest.foldl .inter docs)

/-- Join the clauses of a Boolean node over the documents `all`. -/
def bool (all : DocSet) (must should filter mustNot : List Matches) : Matches :=
  let admitted :=
    match common ((must ++ filter).map (·.docs)) with
    | some docs => docs
    | none => if should.isEmpty then all else (should.map (·.docs)).foldl .union .empty
  let docs := (mustNot.map (·.docs)).foldl .diff admitted
  let sum := fun doc => (must ++ should).foldl (fun sum m => sum + m.score doc) .zero
  ⟨docs, fun doc => if docs.contains doc then sum doc else .zero⟩

end Matches

variable [PatternEngines]

namespace IndexedSegment

variable (s : IndexedSegment)

/-- All documents of the segment. -/
def allDocs : DocSet := .below s.size

/-- The documents whose value of a field has a property. -/
def scan (field : String) (property : FieldValue → Bool) : DocSet :=
  .filterBelow (fun doc => (s.value field doc).any property) s.size

/-- Whether a value reads as an integer within bounds. -/
def inBounds (least greatest : Option Int64) (v : FieldValue) : Bool :=
  v.toInt?.any fun n => least.all (· ≤ n) && greatest.all (n ≤ ·)

mutual

/-- The documents that match a query. It fails if some pattern in the query cannot be compiled, no
matter which documents there are. -/
def matching : Query → Except Failure Matches
  | .all => .ok (.uniform s.allDocs)
  | .term field form => .ok (.uniform (s.postings.lookup field form))
  | .range field least greatest => .ok (.uniform (s.scan field (inBounds least greatest)))
  | .present field => .ok (.uniform (s.scan field fun _ => true))
  | .wildcard field pattern =>
    match PatternEngines.wildcard pattern with
    | .ok describes => .ok (.uniform (s.scan field fun v => describes v.form))
    | .error report => .error (.invalidRequest (.badWildcard pattern report s.core))
  | .regex field pattern =>
    match PatternEngines.regex pattern with
    | .ok finds => .ok (.uniform (s.scan field fun v => finds v.form))
    | .error report => .error (.invalidRequest (.badRegex pattern report s.core))
  | .bool must should filter mustNot => do
    let must ← matchingAll must
    let should ← matchingAll should
    let filter ← matchingAll filter
    let mustNot ← matchingAll mustNot
    return .bool s.allDocs must should filter mustNot
  | .joinKeys field keys =>
    .ok (.uniform (.filterBelow (fun doc => keys.contains (s.joinKey field doc)) s.size))

def matchingAll : List Query → Except Failure (List Matches)
  | [] => .ok []
  | q :: rest => do
    let m ← matching q
    let ms ← matchingAll rest
    return m :: ms

end

/-- The live documents that match a query, in ascending order. If no scores are wanted they are all
given as 0. -/
def search (query : Query) (scored : Bool) : Except Failure (List Hit) := do
  let found ← s.matching query
  let docs := (found.docs.diff s.deleted).toList s.size
  return docs.map fun doc => ⟨doc, if scored then found.score doc else .zero⟩

end IndexedSegment

/-- The live documents that match a query. -/
def Segment.search (query : Query) (scored : Bool) : Segment → Except Failure (List Hit)
  | indexed s => s.search query scored
  | damaged s => .error s.failure

end FederatedSearch
