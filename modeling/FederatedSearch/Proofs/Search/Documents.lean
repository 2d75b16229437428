import FederatedSearch.Proofs.Index.Visits
import FederatedSearch.Proofs.Search.Offers

/-!
# Matches as documents

A match that is offered to a group stands for a document: for a live one of the segment, which matches
the query when it is read on its own. So what searches make of the join keys, the numbers and the scores
of their matches can be said of documents, and neither segments nor key columns show in it.

## Main definitions

* `documentsOf` — the live documents of segments that match a query, numbered through the snapshot
* `entryOf` — the join key of such a document, and the hit that it makes

## Main results

* `Segment.exists_document_of_mem_hits` — the document of a match
* `map_offers_eq` — what is read of matches is read of these documents
* `map_entry_offers` — matches have the keys and make the hits of these documents
* `pairwise_documentsOf` — in a snapshot the numbers ascend
-/

namespace FederatedSearch

variable [PatternEngines]

/-- The live documents of segments that match a query, with their numbers in the snapshot. -/
def documentsOf (query : Query) (segments : List Placed) : List (Document × Nat) :=
  segments.flatMap fun placed =>
    match placed.segment with
    | .indexed s => (s.numbered query).map fun e => (e.1, placed.base + e.2)
    | .damaged _ => []

/-- The join key of a document, and the hit that it makes under a query. -/
def entryOf (query : Query) (field : String) (e : Document × Nat) : JoinKey × Hit :=
  (e.1.joinKey field, ⟨e.2, e.1.score query⟩)

/-- The join key of a match, and the hit in the snapshot. -/
def Offer.entry (field : String) (e : Offer) : JoinKey × Hit := (e.key field, e.hit)

variable {query : Query} {segments : List Placed}

theorem mem_documentsOf {d : Document} {number : Nat} :
    (d, number) ∈ documentsOf query segments ↔ ∃ placed ∈ segments, ∃ s, placed.segment = .indexed s ∧
      ∃ doc, s.docs[doc]? = some d ∧ s.deleted.contains doc = false ∧ d.satisfies query = true ∧
        number = placed.base + doc := by
  rw [documentsOf, List.mem_flatMap]
  refine exists_congr fun placed => and_congr_right fun _ => ?_
  rcases placed.segment with s | s
  · simp only [List.mem_map, Prod.exists, Prod.mk.injEq, IndexedSegment.mem_numbered,
      Segment.indexed.injEq, exists_eq_left']
    constructor
    · rintro ⟨d, doc, ⟨hget, hlive, hmatch⟩, rfl, rfl⟩
      exact ⟨doc, hget, hlive, hmatch, rfl⟩
    · rintro ⟨doc, hget, hlive, hmatch, rfl⟩
      exact ⟨d, doc, ⟨hget, hlive, hmatch⟩, rfl, rfl⟩
  · exact ⟨nofun, nofun⟩

/-- Each document is one of a segment. -/
theorem mem_documentsOf_iff_exists {e : Document × Nat} :
    e ∈ documentsOf query segments ↔ ∃ placed ∈ segments, e ∈ documentsOf query [placed] := by
  simp only [documentsOf, List.mem_flatMap, List.mem_singleton, exists_eq_left]

/-- Segments of a snapshot that have documents of one number are the same. -/
theorem eq_of_mem_documentsOf {core : String} {segments : List Segment} {placed other : Placed}
    (hplaced : placed ∈ (Snapshot.ofSegments core segments).segments)
    (hother : other ∈ (Snapshot.ofSegments core segments).segments) {d d' : Document} {number : Nat}
    (h : (d, number) ∈ documentsOf query [placed]) (h' : (d', number) ∈ documentsOf query [other]) :
    placed = other := by
  obtain ⟨_, hmem, s, hs, doc, hget, -, -, hnumber⟩ := mem_documentsOf.mp h
  obtain ⟨_, hmem', s', hs', doc', hget', -, -, hnumber'⟩ := mem_documentsOf.mp h'
  obtain rfl := List.mem_singleton.mp hmem
  obtain rfl := List.mem_singleton.mp hmem'
  refine (Snapshot.eq_of_number_eq hplaced hother ?_ ?_ (hnumber.symm.trans hnumber')).1
  · rw [hs]
    exact IndexedSegment.lt_size_of_getElem? hget
  · rw [hs']
    exact IndexedSegment.lt_size_of_getElem? hget'

/-- The hits in a segment are its live documents that match. -/
theorem Segment.hits_indexed {s : IndexedSegment} {found : Matches} (h : s.matching query = .ok found) :
    Segment.hits (.indexed s) query = (s.numbered query).map fun e => ⟨e.2, e.1.score query⟩ := by
  rw [Segment.hits, Segment.search, s.search_eq_numbered h]
  rfl

theorem Segment.exists_document_of_mem_hits {s : Segment} {hit : Hit} (h : hit ∈ s.hits query) :
    ∃ segment d, s = .indexed segment ∧ (d, hit.doc) ∈ segment.numbered query := by
  obtain ⟨segment, found, rfl, hfound, -, -⟩ := Segment.mem_hits h
  rw [Segment.hits_indexed hfound] at h
  obtain ⟨⟨d, doc⟩, hmem, rfl⟩ := List.mem_map.mp h
  exact ⟨segment, d, rfl, hmem⟩

/-- **Matches as documents**: what is read of a match in its segment is read of the document. -/
theorem map_offers_eq {α : Type} {f : Offer → α} {g : Document × Nat → α}
    (h : ∀ placed ∈ segments, ∃ hits, placed.segment.search query true = .ok hits)
    (hread : ∀ placed s d doc, placed.segment = .indexed s → s.docs[doc]? = some d →
      f (placed, ⟨doc, d.score query⟩) = g (d, placed.base + doc)) :
    (offers query segments).map f = (documentsOf query segments).map g := by
  rw [offers, documentsOf, List.map_flatMap, List.map_flatMap]
  refine List.flatMap_congr fun placed hmem => ?_
  obtain ⟨hits, hhits⟩ := h placed hmem
  rw [List.map_map]
  rcases hsegment : placed.segment with s | s <;> rw [hsegment] at hhits
  · obtain ⟨found, hfound, -⟩ := IndexedSegment.search_eq_ok hhits
    rw [Segment.hits_indexed hfound, List.map_map, List.map_map]
    exact List.map_congr_left fun e he => hread placed s e.1 e.2 hsegment (s.mem_numbered.mp he).1
  · exact absurd hhits error_ne_ok

/-- Matches have the keys and make the hits of the documents. -/
theorem map_entry_offers
    (h : ∀ placed ∈ segments, ∃ hits, placed.segment.search query true = .ok hits) (field : String) :
    (offers query segments).map (Offer.entry field) =
      (documentsOf query segments).map (entryOf query field) := by
  refine map_offers_eq h fun placed s d doc hsegment hget => ?_
  have hkey : (Bound.of placed).key field doc = d.joinKey field := by
    rw [Bound.of, Bound.key, hsegment, IndexedSegment.key_column,
      IndexedSegment.joinKey_of_getElem? hget]
  exact Prod.ext hkey rfl

theorem documentsOf_flatten (groups : List (List Placed)) :
    (groups.map (documentsOf query)).flatten = documentsOf query groups.flatten := by
  induction groups with
  | nil => rfl
  | cons group groups ih =>
    rw [List.map_cons, List.flatten_cons, List.flatten_cons, ih, documentsOf, documentsOf, documentsOf,
      List.flatMap_append]

/-- **The documents of a snapshot** come with ascending numbers. -/
theorem pairwise_documentsOf {core : String} {segments : List Segment}
    (h : ∀ placed ∈ (Snapshot.ofSegments core segments).segments,
      ∃ hits, placed.segment.search query true = .ok hits) :
    (documentsOf query (Snapshot.ofSegments core segments).segments).Pairwise (·.2 < ·.2) := by
  have hnumbers : (documentsOf query (Snapshot.ofSegments core segments).segments).map (·.2) =
      (offers query (Snapshot.ofSegments core segments).segments).map Offer.number := by
    have hentries := congrArg (List.map fun e => e.2.doc) (map_entry_offers h "")
    rw [List.map_map, List.map_map] at hentries
    exact hentries.symm
  rw [← List.pairwise_map, hnumbers, List.pairwise_map]
  exact pairwise_offers query core segments

end FederatedSearch
