import FederatedSearch.Document.Basic
import FederatedSearch.Index.DocSet

/-!
# Postings

The postings of a segment list, for each field and each text form of a value, the documents with
that form in that field. They are built once, when the segment is made.

## Main definitions

* `Postings` — the lists; `lookup`
* `Postings.ofDocuments` — the postings of documents
-/

namespace FederatedSearch

/-- For each field and each text form, the documents that have it. -/
structure Postings where
  fields : NameMap (NameMap DocSet) := .empty
deriving DecidableEq, Inhabited

namespace Postings

def empty : Postings := {}

/-- The documents with a text form in a field. -/
def lookup (p : Postings) (field form : String) : DocSet :=
  ((p.fields.find? field).bind (·.find? form)).getD .empty

/-- Note that a document has a text form in a field. -/
def add (p : Postings) (field form : String) (doc : Nat) : Postings :=
  ⟨p.fields.update field fun forms =>
    (forms.getD .empty).update form fun docs => (docs.getD .empty).insert doc⟩

/-- Add all fields of a document. -/
def addDocument (p : Postings) (doc : Nat) (d : Document) : Postings :=
  d.fields.entries.foldl (fun p e => p.add e.1 e.2.form doc) p

/-- The postings of documents numbered from 0. -/
def ofDocuments (docs : List Document) : Postings :=
  docs.zipIdx.foldl (fun p (d, i) => p.addDocument i d) empty

end Postings

end FederatedSearch
