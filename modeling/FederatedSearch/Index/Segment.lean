import FederatedSearch.Failure
import FederatedSearch.Index.Identity
import FederatedSearch.Index.Postings

/-!
# Segments

A segment is an immutable part of a core: documents numbered from 0, some of them deleted. A
deleted document keeps its number but is not found any more.

A segment can also be damaged. Then its size is known, and every attempt to read it fails.

## Main definitions

* `IndexedSegment` — documents with their postings
* `Segment` — an indexed or a damaged segment
* `Segment.joinKeys`, `value`, `stored` — reading it
-/

namespace FederatedSearch

/-- Documents of a core with their postings. -/
structure IndexedSegment where
  core : String
  identity : Identity
  docs : Array Document
  deleted : DocSet := .empty
  postings : Postings := .ofDocuments docs.toList
  postings_eq : postings = .ofDocuments docs.toList := by rfl

namespace IndexedSegment

variable (s : IndexedSegment)

/-- A new segment with nothing deleted. -/
def create (core : String) (docs : List Document) : Minting IndexedSegment := do
  return { core, identity := ← mint, docs := docs.toArray }

/-- The number of documents, deleted ones included. -/
def size : Nat := s.docs.size

/-- The number of documents that are not deleted. -/
def liveCount : Nat := s.size - s.deleted.count s.size

def value (field : String) (doc : Nat) : Option FieldValue :=
  s.docs[doc]?.bind (·.field? field)

def joinKey (field : String) (doc : Nat) : JoinKey :=
  match s.docs[doc]? with
  | some d => d.joinKey field
  | none => noKey

/-- The documents that are not deleted, in order. -/
def liveDocuments : List Document :=
  (s.docs.toList.zipIdx.filter fun (_, i) => !s.deleted.contains i).map (·.1)

end IndexedSegment

/-- A segment that cannot be read. -/
structure DamagedSegment where
  core : String
  identity : Identity
  size : Nat
  reason : String

/-- Why reading a damaged segment fails. -/
def DamagedSegment.failure (s : DamagedSegment) : Failure := .segment s.core (.unreadable s.reason)

/-- A part of a core. -/
inductive Segment where
  | indexed (s : IndexedSegment)
  | damaged (s : DamagedSegment)

namespace Segment

def identity : Segment → Identity
  | indexed s => s.identity
  | damaged s => s.identity

/-- Document numbers are below this. -/
def size : Segment → Nat
  | indexed s => s.size
  | damaged s => s.size

/-- The number of live documents, by which work is balanced. -/
def liveCount : Segment → Nat
  | indexed s => s.liveCount
  | damaged s => s.size

/-- The value of a field, if the document has one. -/
def value (field : String) (doc : Nat) : Segment → Except Failure (Option FieldValue)
  | indexed s => .ok (s.value field doc)
  | damaged s => .error s.failure

def joinKey (field : String) (doc : Nat) : Segment → Except Failure JoinKey
  | indexed s => .ok (s.joinKey field doc)
  | damaged s => .error s.failure

/-- The join keys in a field by document number. For an empty segment nothing has to be read. -/
def joinKeys (field : String) (s : Segment) : Except Failure (Array JoinKey) :=
  (Array.range s.size).mapM fun doc => s.joinKey field doc

/-- A document as it was added. Deleted documents are still stored. -/
def stored (doc : Nat) : Segment → Except Failure Document
  | indexed s =>
    match s.docs[doc]? with
    | some d => .ok d
    | none => .error (.segment s.core (.noStoredDocument doc))
  | damaged s => .error s.failure

end Segment

end FederatedSearch
