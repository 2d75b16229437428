import FederatedSearch.Number.Binary

/-!
# Hits

A hit is a matching document with its score. Hits are ranked by relevance: the higher score first,
in the total order on words, and of equal scores the lower document number. No two hits of one
search have the same number, so the ranking never leaves two of them tied.

## Main definitions

* `Hit` — a document number with a score
* `Hit.compareRelevance` — the ranking
-/

namespace FederatedSearch

/-- A matching document. Its number is local to a segment while the segment is searched, and counts
through all segments of the core after that. -/
structure Hit where
  doc : Nat
  score : Binary32
deriving DecidableEq, Inhabited, Repr

namespace Hit

/-- Relevance order, most relevant first. -/
def compareRelevance (a b : Hit) : Ordering :=
  (b.score.compareTotal a.score).then (compare a.doc b.doc)

/-- Whether `a` comes before `b`. -/
def isBefore (a b : Hit) : Bool := a.compareRelevance b == .lt

/-- Put a hit in its place among hits in relevance order. -/
def insertInOrder (hit : Hit) : List Hit → List Hit
  | [] => [hit]
  | h :: rest => if hit.isBefore h then hit :: h :: rest else h :: insertInOrder hit rest

/-- Hits in relevance order. -/
def sortByRelevance (hits : List Hit) : List Hit :=
  hits.mergeSort fun a b => !b.isBefore a

end Hit

end FederatedSearch
