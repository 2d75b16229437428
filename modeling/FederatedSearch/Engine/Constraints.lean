import FederatedSearch.NameMap
import FederatedSearch.Query.Basic

/-!
# Constraints on the result core

What other cores demand of the documents of the result core is a set of admissible join keys for
each of some fields. Demands on one field add up: their sets meet.

## Main definitions

* `Constraints` — key sets by field; `require` adds a demand
* `Constraints.narrow` — a query narrowed to the documents that satisfy all demands
-/

namespace FederatedSearch

/-- The admissible join keys by field of the result core. -/
structure Constraints where
  sets : NameMap KeySet := .empty
deriving Inhabited

namespace Constraints

def empty : Constraints := {}

/-- Demand that the key in a field belongs to a set. -/
def require (c : Constraints) (field : String) (keys : KeySet) : Constraints :=
  ⟨c.sets.update field fun
    | some current => current.meet keys
    | none => keys⟩

/-- Narrow a query to documents whose keys belong to all sets. -/
def narrow (c : Constraints) (query : Query) : Query :=
  c.sets.entries.foldl (fun q e => q.withFilter (.joinKeys e.1 e.2)) query

end Constraints

end FederatedSearch
