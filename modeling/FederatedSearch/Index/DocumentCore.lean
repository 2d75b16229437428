import FederatedSearch.Index.Snapshot

/-!
# Cores of documents

A document core is a list of indexed segments that changes by adding documents, deleting them and
merging segments. Segments never change: a deletion or a merge replaces them by new ones with new
identities.

## Main definitions

* `DocumentCore` — the core
* `DocumentCore.addSegment`, `delete`, `mergeSegments` — the changes
* `DocumentCore.publish` — its state as a `Core`
-/

namespace FederatedSearch

/-- A core held in memory. -/
structure DocumentCore where
  name : String
  segments : List IndexedSegment := []

namespace IndexedSegment

/-- The numbers of the live documents with an identifier. -/
def liveWithId (s : IndexedSegment) (id : String) : List Nat :=
  (s.docs.toList.zipIdx.filter fun (d, i) => d.id = id && !s.deleted.contains i).map (·.2)

/-- Delete the live documents with an identifier, and say how many there were. A segment without
any stays as it is. -/
def delete (s : IndexedSegment) (id : String) : Minting (IndexedSegment × Nat) := do
  let docs := s.liveWithId id
  if docs.isEmpty then return (s, 0)
  else return ({ s with identity := ← mint, deleted := docs.foldl .insert s.deleted }, docs.length)

end IndexedSegment

namespace DocumentCore

variable (c : DocumentCore)

/-- Add documents as a new segment. -/
def addSegment (docs : List Document) : Minting DocumentCore := do
  let segment ← IndexedSegment.create c.name docs
  return { c with segments := c.segments ++ [segment] }

/-- Delete all live documents with an identifier, and say how many there were. -/
def delete (id : String) : Minting (DocumentCore × Nat) := do
  let results ← c.segments.mapM (·.delete id)
  return ({ c with segments := results.map (·.1) }, results.foldl (fun count r => count + r.2) 0)

/-- Put all live documents into one new segment. A core with a single segment is left alone. -/
def mergeSegments : Minting DocumentCore := do
  if c.segments.length < 2 then return c
  else
    let docs := c.segments.flatMap (·.liveDocuments)
    return { c with segments := [← IndexedSegment.create c.name docs] }

/-- A core with one segment for each list of documents. -/
def ofSegments (name : String) (segments : List (List Document)) : Minting DocumentCore :=
  segments.foldlM (fun c docs => c.addSegment docs) { name }

/-- The state of the core for searching. -/
def publish : Core := ⟨c.name, c.segments.map .indexed⟩

end DocumentCore

end FederatedSearch
