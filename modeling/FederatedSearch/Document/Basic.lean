import FederatedSearch.Keys.Growth
import FederatedSearch.NameMap
import FederatedSearch.Number.Layout
import FederatedSearch.Number.Reading

/-!
# Documents

A document is an identifier and a map of fields. Values are loosely typed: a text can serve as a
number, and every value has a text form, which is what terms, facets and patterns work on.

## Main definitions

* `FieldValue` — a value; `text`, `toInt?`, `toDouble?` are its readings
* `FieldValue.joinKey` — the reading as a join key
* `Document` — an identifier with its fields
-/

namespace FederatedSearch

/-- The value of a field. -/
inductive FieldValue where
  | int (value : Int64)
  | double (value : Binary64)
  | text (value : String)
deriving DecidableEq, Inhabited, Repr

namespace FieldValue

/-- The text form. -/
def form : FieldValue → String
  | int v => toString v.toInt
  | double x => x.plainText
  | text s => s

/-- The integer reading; a fraction is dropped and an excess clamped. -/
def toInt? : FieldValue → Option Int64
  | int v => some v
  | double x => some x.truncate
  | text s => int64OfText? s

def toDouble? : FieldValue → Option Binary64
  | int v => some (.ofInt v.toInt)
  | double x => some x
  | text s => Binary64.ofText? s

/-- The reading as a join key. What is not a positive integer relates to nothing. -/
def joinKey (v : FieldValue) : JoinKey :=
  match v.toInt? with
  | some n => if 0 < n.toInt then n.toInt.toNat else noKey
  | none => noKey

end FieldValue

/-- A document as it is indexed and as it is given back. -/
structure Document where
  id : String
  fields : NameMap FieldValue := .empty
deriving DecidableEq, Inhabited

namespace Document

def field? (d : Document) (name : String) : Option FieldValue := d.fields.find? name

/-- The join key in a field; a document without the field has none. -/
def joinKey (d : Document) (name : String) : JoinKey :=
  match d.field? name with
  | some v => v.joinKey
  | none => noKey

end Document

end FederatedSearch
