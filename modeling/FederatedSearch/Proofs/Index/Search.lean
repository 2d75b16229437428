import FederatedSearch.Proofs.Query.Same
import FederatedSearch.Proofs.Collector.JoinKeys

/-!
# What a segment finds

A search of an indexed segment goes through the live documents that match, once each. An indexed
segment can always be read, so it fails to answer for its keys only if some pattern of the query is
bad or some match has a key beyond what a bitset admits.

## Main definitions

* `IndexedSegment.Finds` — a live document that matches

## Main results

* `IndexedSegment.mem_search` — a search has the documents that are found
* `IndexedSegment.hasKey_iff`, `IndexedSegment.answers_iff` — the answer of a segment in terms of its
  documents
-/

namespace FederatedSearch

theorem DocSet.mem_toList {docs : DocSet} {bound doc : Nat} :
    doc ∈ docs.toList bound ↔ doc < bound ∧ docs.contains doc = true := by
  rw [toList, List.mem_filter, List.mem_range]

variable [PatternEngines]

namespace IndexedSegment

variable (s : IndexedSegment) (query : Query)

/-- The document is in the segment, it is not deleted, and it matches the query. -/
def Finds (doc : Nat) : Prop :=
  doc < s.size ∧ s.deleted.contains doc = false ∧
    ∃ found, s.matching query = .ok found ∧ found.docs.contains doc = true

variable {s query}

theorem search_eq_ok {scored : Bool} {hits : List Hit} (h : s.search query scored = .ok hits) :
    ∃ found, s.matching query = .ok found ∧
      hits = ((found.docs.diff s.deleted).toList s.size).map fun doc =>
        ⟨doc, if scored then found.score doc else .zero⟩ := by
  obtain ⟨found, hfound, h⟩ := bind_eq_ok.mp h
  exact ⟨found, hfound, (Except.ok.inj h).symm⟩

/-- **A search** has the live documents that match. -/
theorem mem_search {scored : Bool} {hits : List Hit} (h : s.search query scored = .ok hits)
    (doc : Nat) : (∃ hit ∈ hits, hit.doc = doc) ↔ s.Finds query doc := by
  obtain ⟨found, hfound, rfl⟩ := search_eq_ok h
  constructor
  · rintro ⟨hit, hmem, rfl⟩
    obtain ⟨doc, hdoc, rfl⟩ := List.mem_map.mp hmem
    obtain ⟨hlt, hcontains⟩ := DocSet.mem_toList.mp hdoc
    rw [DocSet.contains_diff, Bool.and_eq_true, Bool.not_eq_true'] at hcontains
    exact ⟨hlt, hcontains.2, found, hfound, hcontains.1⟩
  · rintro ⟨hlt, hlive, other, hother, hmatch⟩
    obtain rfl : other = found := Except.ok.inj (hother.symm.trans hfound)
    refine ⟨_, List.mem_map_of_mem (DocSet.mem_toList.mpr ⟨hlt, ?_⟩), rfl⟩
    rw [DocSet.contains_diff, hmatch, hlive]
    rfl

theorem exists_search_iff (scored : Bool) :
    (∃ hits, s.search query scored = .ok hits) ↔ query.compiles = true := by
  rw [← exists_matching_iff s query]
  constructor
  · rintro ⟨hits, h⟩
    obtain ⟨found, hfound, -⟩ := search_eq_ok h
    exact ⟨found, hfound⟩
  · rintro ⟨found, hfound⟩
    exact ⟨_, by rw [search, hfound]; rfl⟩

/-! ### Keys -/

variable (s) (field : String)

omit [PatternEngines] in
theorem joinKeys_indexed :
    Segment.joinKeys field (.indexed s) = .ok ((Array.range s.size).map (s.joinKey field)) :=
  Array.mapM_pure

omit [PatternEngines] in
/-- The column of a segment has the keys of its documents. -/
theorem key_column (doc : Nat) :
    (Segment.column (.indexed s) field).key doc = s.joinKey field doc := by
  rw [Segment.column, joinKeys_indexed]
  by_cases hdoc : doc < s.size
  · simp [KeyColumn.key, Array.getD, hdoc]
  · have hnone : s.docs[doc]? = none := Array.getElem?_eq_none (Nat.not_lt.mp hdoc)
    simp [KeyColumn.key, Array.getD, hdoc, joinKey, hnone]

variable {field}

theorem hasKey_iff (key : JoinKey) : Segment.HasKey (.indexed s) query field key ↔
    key ≠ noKey ∧ ∃ doc, s.Finds query doc ∧ s.joinKey field doc = key := by
  rw [Segment.HasKey]
  refine and_congr_right fun _ => ?_
  constructor
  · rintro ⟨hits, hhits, hit, hmem, hkey⟩
    exact ⟨hit.doc, (mem_search hhits _).mp ⟨hit, hmem, rfl⟩, by rw [← key_column, hkey]⟩
  · rintro ⟨doc, hfinds, hkey⟩
    obtain ⟨found, hfound, -⟩ := hfinds.2.2
    obtain ⟨hits, hhits⟩ := (exists_search_iff true).mpr ((exists_matching_iff s query).mp ⟨found, hfound⟩)
    obtain ⟨hit, hmem, rfl⟩ := (mem_search hhits doc).mpr hfinds
    exact ⟨hits, hhits, hit, hmem, by rw [key_column, hkey]⟩

theorem answers_iff : Segment.Answers (.indexed s) query field ↔
    query.compiles = true ∧ ∀ doc, s.Finds query doc → s.joinKey field doc ≤ maxKey := by
  constructor
  · rintro ⟨-, hits, hhits, hle⟩
    refine ⟨(exists_search_iff true).mp ⟨hits, hhits⟩, fun doc hfinds => ?_⟩
    obtain ⟨hit, hmem, rfl⟩ := (mem_search hhits doc).mpr hfinds
    rw [← key_column]
    exact hle hit hmem
  · rintro ⟨hcompiles, hle⟩
    obtain ⟨hits, hhits⟩ := (exists_search_iff (s := s) true).mpr hcompiles
    refine ⟨⟨_, joinKeys_indexed s field⟩, hits, hhits, fun hit hmem => ?_⟩
    rw [key_column]
    exact hle _ ((mem_search hhits _).mp ⟨hit, hmem, rfl⟩)

end IndexedSegment

end FederatedSearch
