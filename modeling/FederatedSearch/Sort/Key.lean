import FederatedSearch.Json.Value
import FederatedSearch.Request.Basic

/-!
# Sort keys

A sort key is what a document is sorted by at one level of a sort order. Keys of one level are all
of one kind, and keys of different kinds count as equal.

## Main definitions

* `SortKey` — the key
* `SortKey.compareUnder` — the comparison under an order and a policy for missing values
-/

namespace FederatedSearch

/-- What a document is sorted by. -/
inductive SortKey where
  /-- A text, or none if the document has no value. -/
  | text (value : Option String)
  | int (value : Int64)
  | double (value : Binary64)
deriving DecidableEq, Inhabited, Repr

namespace SortKey

/-- Where a missing text goes relative to a text. -/
def missingFirst (missing : MissingValue) : Ordering :=
  if missing = .textFirst then .lt else .gt

def orient (order : SortOrder) (o : Ordering) : Ordering :=
  match order with
  | .ascending => o
  | .descending => o.swap

/-- The comparison under an order. Missing texts keep their place whatever the order is. Doubles are
compared in the total order on words. -/
def compareUnder (order : SortOrder) (missing : MissingValue) : SortKey → SortKey → Ordering
  | text none, text none => .eq
  | text none, text (some _) => missingFirst missing
  | text (some _), text none => (missingFirst missing).swap
  | text (some a), text (some b) => orient order (compare a b)
  | int a, int b => orient order (compare a.toInt b.toInt)
  | double a, double b => orient order (a.compareTotal b)
  | _, _ => .eq

/-- The plain value. -/
def toJson : SortKey → Json
  | text (some s) => .text s
  | text none => .null
  | int v => .integer v.toInt
  | double x => .double x

end SortKey

end FederatedSearch
