/-!
# Segment identities

Each published state of a segment has an identity of its own. Whatever is remembered about a
segment is remembered under its identity, and a change of its documents, deletions included,
publishes a new one, so that nothing remembered can go stale.

## Main definitions

* `Identity` — the identity
* `IdentitySource`, `Minting`, `mint` — a supply of identities, each given out once
-/

namespace FederatedSearch

/-- The identity of a published segment. -/
structure Identity where
  serial : Nat
deriving DecidableEq, Inhabited, Repr

/-- A supply of identities: `next` has not been given out yet. -/
structure IdentitySource where
  next : Nat := 1
deriving Inhabited

/-- Computations that give out identities. -/
abbrev Minting := StateM IdentitySource

/-- A new identity. -/
def mint : Minting Identity := modifyGet fun source => (⟨source.next⟩, ⟨source.next + 1⟩)

end FederatedSearch
