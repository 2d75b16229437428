import FederatedSearch.Collector.Basic
import FederatedSearch.Request.Basic

/-!
# Facets

A facet counts, for one field, how many matching documents have each text form. Terms are listed
with the most frequent first and terms of equal frequency in order. The list is cut to the limit
only when the counts of all groups have been added up.

## Main definitions

* `TermCount`, `Facet` — a count, and the counts for one field
* `faceting` — the collector
-/

namespace FederatedSearch

/-- How many documents have a text form. -/
structure TermCount where
  term : String
  count : Nat
deriving DecidableEq, Inhabited, Repr

/-- The counts for a field. -/
structure Facet where
  field : String
  counts : List TermCount
deriving DecidableEq, Inhabited, Repr

/-- Counts by term while they are gathered. -/
abbrev Tally := NameMap Nat

namespace Tally

def add (t : Tally) (term : String) (count : Nat) : Tally :=
  t.update term fun old => old.getD 0 + count

/-- Add all counts of another tally. -/
def addAll (t other : Tally) : Tally := other.entries.foldl (fun t e => t.add e.1 e.2) t

end Tally

/-- More documents first, then by term. -/
def TermCount.precedes (a b : TermCount) : Bool :=
  b.count < a.count || (a.count == b.count && a.term ≤ b.term)

/-- The facet that a request asks for, from the counts of all documents. -/
def FacetRequest.report (r : FacetRequest) (tally : Tally) : Facet where
  field := r.field
  counts :=
    let counts := (tally.entries.filter (r.minCount.toNat ≤ ·.2)).map fun e => ⟨e.1, e.2⟩
    let sorted := counts.mergeSort TermCount.precedes
    match r.limit with
    | some limit => sorted.take limit.toNat
    | none => sorted

/-- Add tallies position by position. Tallies beyond the first list are dropped. -/
def addTallies : List Tally → List Tally → List Tally
  | t :: ts, u :: us => t.addAll u :: addTallies ts us
  | ts, _ => ts

/-- Count a document of a segment for each request. -/
def tallyDocument (segment : Segment) (doc : Nat) :
    List FacetRequest → List Tally → Except Failure (List Tally)
  | r :: rs, t :: ts => do
    let value ← segment.value r.field doc
    let rest ← tallyDocument segment doc rs ts
    return (match value with
      | some v => t.add v.form 1
      | none => t) :: rest
  | _, ts => .ok ts

/-- Collect the facets for a list of requests. Without requests no document has to be seen. -/
def faceting (requests : List FacetRequest) :
    Collector Unit (List Tally) (List Tally) (List Facet) where
  board := ()
  start := pure (requests.map fun _ => .empty)
  bind _ tallies := pure {
    visit := if requests.isEmpty then .skip else .docs
    state := tallies }
  collect bound hit tallies :=
    match bound.placed with
    | some placed => .ofExcept (tallyDocument placed.segment hit.doc requests tallies)
    | none => pure tallies
  finish := pure
  merge _ partials :=
    let totals := partials.foldl addTallies (requests.map fun _ => .empty)
    .ok (List.zipWith FacetRequest.report requests totals)

end FederatedSearch
