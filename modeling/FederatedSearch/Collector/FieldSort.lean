import FederatedSearch.Sort.Clause

/-!
# The first hits in a sort order

Each group gathers hits with their sort keys. Whenever twice the limit has been gathered, only the
first hits are kept, up to the limit.
-/

namespace FederatedSearch

/-- Take a hit into a buffer that is cut when it holds twice the limit. -/
def bufferSorted (clauses : List SortClause) (limit : Nat) (buffer : List SortedHit)
    (hit : SortedHit) : List SortedHit :=
  let buffer := buffer ++ [hit]
  if 2 * limit ≤ buffer.length then firstSorted clauses limit buffer else buffer

/-- The sort keys of a hit; none if no segment is bound. -/
def sortKeys (clauses : List SortClause) (bound : Bound) (hit : Hit) :
    Except Failure (List SortKey) :=
  match bound.placed with
  | some placed => clauses.mapM fun c => c.key bound placed hit
  | none => .ok []

/-- Collect the first hits under a list of clauses, at most `limit`. With a limit of 0 no document
has to be seen. -/
def firstInOrder (clauses : List SortClause) (limit : Nat) :
    Collector Unit (List SortedHit) (List SortedHit) (List SortedHit) where
  needsScores := true
  board := ()
  start := pure []
  bind _ buffer := pure {
    visit := if limit = 0 then .skip else .docs
    fields := clauses.flatMap (·.keyFields)
    state := buffer }
  collect bound hit buffer := do
    let keys ← .ofExcept (sortKeys clauses bound hit)
    return bufferSorted clauses limit buffer ⟨bound.place hit, keys⟩
  finish buffer := pure (firstSorted clauses limit buffer)
  merge _ partials := .ok (firstSorted clauses limit partials.flatten)

end FederatedSearch
