import FederatedSearch.Failure
import FederatedSearch.Keys.KeyTable

/-!
# Documents by join key

A document table says which document of another core a join key leads to: the first one recorded
for the key. It is what a sort by a field of another core looks things up in.

## Main definitions

* `DocTable` — the table; `record?`
-/

namespace FederatedSearch

/-- Document numbers by join key. -/
abbrev DocTable := KeyTable Nat

namespace DocTable

/-- The greatest key that is admitted: four bytes are needed per key. -/
def maxKey : JoinKey := maxKeyFor 4

/-- Record a document for a key that has none. -/
def record? (t : DocTable) (key : JoinKey) (doc : Nat) : Except Failure DocTable :=
  if maxKey < key then .error (.keyTooLarge (.sort key maxKey))
  else .ok (t.record key doc)

end DocTable

end FederatedSearch
