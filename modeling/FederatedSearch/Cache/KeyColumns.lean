import FederatedSearch.Cache.SegmentMap
import FederatedSearch.Index.Segment
import FederatedSearch.Process

/-!
# Key columns

A key column holds the join keys in one field of one segment, by document number. Columns are read
from the segment once and remembered with it.

## Main definitions

* `KeyColumn` — the column; `KeyColumn.key`
* `KeyColumns.load` — the column of a segment, read or remembered
-/

namespace FederatedSearch

/-- The join keys of a segment by document number. -/
abbrev KeyColumn := Array JoinKey

/-- The key of a document; none beyond the end of the column. -/
def KeyColumn.key (c : KeyColumn) (doc : Nat) : JoinKey := c.getD doc noKey

/-- Remembered columns, by segment and field. -/
abbrev KeyColumns := SegmentMap String KeyColumn

namespace KeyColumns

def empty : KeyColumns := {}

/-- The column of a field of a segment: the remembered one, or else it is read and remembered, unless
another group has been faster; its column counts then. -/
def load (live : Liveness) (segment : Segment) (field : String) : Process KeyColumns KeyColumn := do
  match ← Process.update fun c => (c.get? live segment.identity field, c) with
  | some column => return column
  | none =>
    let column ← Process.ofExcept (segment.joinKeys field)
    Process.update fun c => c.insertIfAbsent live segment.identity field column

end KeyColumns

end FederatedSearch
