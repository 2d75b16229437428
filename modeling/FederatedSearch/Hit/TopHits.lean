import FederatedSearch.Hit.Basic

/-!
# The best hits

`TopHits` keeps the best of the hits offered to it, as many as its capacity. A hit that comes when
there is no room left is kept only if it is more relevant than the worst hit kept, which then gives
way.

## Main definitions

* `TopHits.offer` — offer a hit; the flag says whether it was kept
* `TopHits.threshold` — the hit to beat, once there is no room left
-/

namespace FederatedSearch

/-- The best hits so far, best first. -/
structure TopHits where
  capacity : Nat
  hits : List Hit := []
deriving Inhabited, Repr

namespace TopHits

def empty (capacity : Nat) : TopHits := ⟨capacity, []⟩

def size (t : TopHits) : Nat := t.hits.length

def isFull (t : TopHits) : Bool := t.capacity ≤ t.size

/-- The worst hit kept, once there is no room left. -/
def threshold (t : TopHits) : Option Hit := if t.isFull then t.hits.getLast? else none

/-- Offer a hit. The flag says whether it was kept. -/
def offer (t : TopHits) (hit : Hit) : TopHits × Bool :=
  if t.capacity = 0 then (t, false)
  else
    match t.threshold with
    | none => ({ t with hits := hit.insertInOrder t.hits }, true)
    | some worst =>
      if hit.isBefore worst then ({ t with hits := hit.insertInOrder t.hits.dropLast }, true)
      else (t, false)

def insert (t : TopHits) (hit : Hit) : TopHits := (t.offer hit).1

/-- Offer hits one by one. -/
def insertAll (t : TopHits) (hits : List Hit) : TopHits := hits.foldl insert t

end TopHits

end FederatedSearch
