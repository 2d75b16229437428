import FederatedSearch.Proofs.Index.Snapshot
import FederatedSearch.Proofs.Search.Reading
import Mathlib.Data.List.Nodup

/-!
# What the groups of a search are offered

Most collectors do nothing about segments but say, in the same way for each of them, whether they
want to see the documents. For such a plain collector a search amounts to offering matches to the
groups, and it does not matter which segments these come from. Spreading the segments over groups in
another way offers the same matches, grouped in another way and in another order.

A search can also fail before anything is offered, if there is a segment that cannot be searched. When all
segments can be read, this is so just if the query cannot be evaluated.

## Main definitions

* `Offer`, `offers` — a match with its segment, and the matches of segments
* `CanSearch`, `Searchable` — a search gets as far as to its matches
* `Collector.Plain` — a collector that leaves it at that

## Main results

* `numbered_offers`, `pairwise_offers` — the matches of a snapshot are told apart by their numbers, and
  come in ascending order
* `canSearch_iff` — what segments that can be read need
-/

namespace FederatedSearch

variable [PatternEngines]

/-- The matches of a segment; none if it cannot be searched. -/
def Segment.hits (s : Segment) (query : Query) : List Hit :=
  match s.search query true with
  | .ok hits => hits
  | .error _ => []

/-- A match with the segment that it is in. -/
abbrev Offer := Placed × Hit

namespace Offer

/-- The number of the document among all documents of the snapshot. -/
def number (e : Offer) : Nat := e.1.base + e.2.doc

/-- The match as a hit in the snapshot. -/
def hit (e : Offer) : Hit := (Bound.of e.1).place e.2

/-- The join key of the match in a field. -/
def key (field : String) (e : Offer) : JoinKey := (Bound.of e.1).key field e.2.doc

omit [PatternEngines] in
theorem hit_eq (e : Offer) : e.hit = ⟨e.number, e.2.score⟩ := rfl

end Offer

/-- The matches of segments, in order. -/
def offers (query : Query) (segments : List Placed) : List Offer :=
  segments.flatMap fun placed => (placed.segment.hits query).map (placed, ·)

variable {query : Query}

theorem offers_flatten (groups : List (List Placed)) :
    (groups.map (offers query)).flatten = offers query groups.flatten := by
  induction groups with
  | nil => rfl
  | cons group groups ih =>
    rw [List.map_cons, List.flatten_cons, List.flatten_cons, ih, offers, offers, offers,
      List.flatMap_append]

theorem offers_perm (query : Query) {segments others : List Placed} (h : segments.Perm others) :
    (offers query segments).Perm (offers query others) := h.flatMap_right _

theorem mem_offers {segments : List Placed} {e : Offer} :
    e ∈ offers query segments ↔ e.1 ∈ segments ∧ e.2 ∈ e.1.segment.hits query := by
  rw [offers, List.mem_flatMap]
  constructor
  · rintro ⟨placed, hmem, he⟩
    obtain ⟨hit, hhit, rfl⟩ := List.mem_map.mp he
    exact ⟨hmem, hhit⟩
  · rintro ⟨hmem, hhit⟩
    exact ⟨e.1, hmem, List.mem_map_of_mem hhit⟩

theorem offers_subset {segments others : List Placed} (h : segments ⊆ others) :
    offers query segments ⊆ offers query others :=
  fun _ he => mem_offers.mpr ((mem_offers.mp he).imp_left fun hmem => h hmem)

/-- Every segment can be searched. -/
abbrev CanSearch (query : Query) (segments : List Placed) : Prop :=
  ∀ placed ∈ segments, ∃ hits, placed.segment.search query true = .ok hits

theorem CanSearch.indexed {segments : List Placed} (h : CanSearch query segments) :
    ∀ placed ∈ segments, ∃ segment, placed.segment = .indexed segment := by
  intro placed hmem
  obtain ⟨hits, hhits⟩ := h placed hmem
  rcases hsegment : placed.segment with segment | segment
  · exact ⟨segment, rfl⟩
  · rw [hsegment] at hhits
    exact absurd hhits error_ne_ok

omit [PatternEngines] in
/-- What holds of all segments holds in every group that they are spread over. -/
theorem forall_group_of_perm {p : Placed → Prop} {segments : List Placed} {groups : List (List Placed)}
    (h : ∀ placed ∈ segments, p placed) (hgroups : groups.flatten.Perm segments) :
    ∀ group ∈ groups, ∀ placed ∈ group, p placed :=
  fun group hgroup placed hmem =>
    h placed (hgroups.mem_iff.mp (List.mem_flatten.mpr ⟨group, hgroup, hmem⟩))

theorem CanSearch.perm {segments others : List Placed} (h : CanSearch query segments)
    (hperm : segments.Perm others) : CanSearch query others :=
  fun placed hmem => h placed (hperm.mem_iff.mpr hmem)

theorem CanSearch.group {groups : List (List Placed)} (h : CanSearch query groups.flatten)
    {group : List Placed} (hgroup : group ∈ groups) : CanSearch query group :=
  fun placed hmem => h placed (List.mem_flatten.mpr ⟨group, hgroup, hmem⟩)

/-- The query can be evaluated, unless there is nothing to search. -/
def Searchable (query : Query) (segments : List Placed) : Prop :=
  query.compiles = true ∨ segments = []

/-- Segments that can be read can be searched if the query can be evaluated. -/
theorem canSearch_iff {segments : List Placed}
    (hindexed : ∀ placed ∈ segments, ∃ segment, placed.segment = .indexed segment) :
    CanSearch query segments ↔ Searchable query segments := by
  have hone : ∀ placed ∈ segments,
      (∃ hits, placed.segment.search query true = .ok hits) ↔ query.compiles = true := by
    intro placed hmem
    obtain ⟨segment, hsegment⟩ := hindexed placed hmem
    rw [hsegment]
    exact IndexedSegment.exists_search_iff true
  constructor
  · intro h
    cases segments with
    | nil => exact .inr rfl
    | cons placed segments => exact .inl ((hone placed List.mem_cons_self).mp (h placed List.mem_cons_self))
  · rintro (hcompiles | rfl)
    · exact fun placed hmem => (hone placed hmem).mpr hcompiles
    · exact fun placed hmem => absurd hmem List.not_mem_nil

/-- No two of these matches have one number. -/
def Numbered (items : List Offer) : Prop :=
  ∀ e ∈ items, ∀ e' ∈ items, e.number = e'.number → e = e'

omit [PatternEngines] in
theorem Numbered.subset {items others : List Offer} (h : Numbered items) (hsub : others ⊆ items) :
    Numbered others := fun e he e' he' => h e (hsub he) e' (hsub he')

omit [PatternEngines] in
theorem Numbered.perm {items others : List Offer} (h : Numbered items) (hperm : items.Perm others) :
    Numbered others := h.subset hperm.symm.subset

section Numbered

variable {items : List Offer} (h : Numbered items)
include h

omit [PatternEngines] in
theorem Numbered.eq_of_hit_eq {e e' : Offer} (he : e ∈ items) (he' : e' ∈ items)
    (hhit : e.hit = e'.hit) : e = e' := h e he e' he' (congrArg Hit.doc hhit)

omit [PatternEngines] in
/-- Some of the matches are hits of different numbers. -/
theorem Numbered.nodup_hits (hnodup : items.Nodup) {some : List Offer} (hsub : some.Sublist items) :
    (some.map Offer.hit).Nodup :=
  List.Nodup.map_on (fun _ he _ he' hhit => h.eq_of_hit_eq (hsub.subset he) (hsub.subset he') hhit)
    (hnodup.sublist hsub)

end Numbered

theorem Segment.mem_hits {s : Segment} {hit : Hit} (h : hit ∈ s.hits query) :
    ∃ segment found, s = .indexed segment ∧ segment.matching query = .ok found ∧
      hit.doc < segment.size ∧ hit.score = found.score hit.doc := by
  rw [hits] at h
  cases s with
  | damaged s => exact absurd h List.not_mem_nil
  | indexed segment =>
    rcases hsearch : segment.search query true with failure | hits
    · rw [Segment.search, hsearch] at h
      exact absurd h List.not_mem_nil
    · rw [Segment.search, hsearch] at h
      obtain ⟨found, hfound, rfl⟩ := IndexedSegment.search_eq_ok hsearch
      obtain ⟨doc, hdoc, rfl⟩ := List.mem_map.mp h
      exact ⟨segment, found, rfl, hfound, (DocSet.mem_toList.mp hdoc).1, rfl⟩

theorem indexed_of_mem_offers {segments : List Placed} {e : Offer} (h : e ∈ offers query segments) :
    ∃ segment, e.1.segment = .indexed segment := by
  obtain ⟨segment, -, hsegment, -, -, -⟩ := Segment.mem_hits (mem_offers.mp h).2
  exact ⟨segment, hsegment⟩

theorem doc_lt_of_mem_offers {segments : List Placed} {e : Offer} (h : e ∈ offers query segments) :
    e.2.doc < e.1.segment.size := by
  obtain ⟨segment, -, hsegment, -, hlt, -⟩ := Segment.mem_hits (mem_offers.mp h).2
  rw [hsegment]
  exact hlt

section OfSegments

variable {core : String} {segments : List Segment} {e : Offer}
  (h : e ∈ offers query (Snapshot.ofSegments core segments).segments)
include h

theorem number_lt_of_mem_offers : e.number < (segments.map (·.size)).sum := by
  have hend := end_le_of_mem_placeFrom (mem_offers.mp h).1
  have hdoc := doc_lt_of_mem_offers h
  rw [Offer.number]
  omega

theorem stored_of_mem_offers :
    (Snapshot.ofSegments core segments).stored e.number = e.1.segment.stored e.2.doc :=
  Snapshot.stored_of_lt (mem_offers.mp h).1 (doc_lt_of_mem_offers h)

end OfSegments

/-- The matches in the segments of a snapshot are told apart by their numbers. -/
theorem numbered_offers (query : Query) (core : String) (segments : List Segment) :
    Numbered (offers query (Snapshot.ofSegments core segments).segments) := by
  rintro ⟨placed, hit⟩ he ⟨other, hit'⟩ he' hnumber
  obtain ⟨hplaced, hhit⟩ := mem_offers.mp he
  obtain ⟨hother, hhit'⟩ := mem_offers.mp he'
  obtain ⟨segment, found, hsegment, hfound, -, hscore⟩ := Segment.mem_hits hhit
  obtain ⟨segment', found', hsegment', hfound', -, hscore'⟩ := Segment.mem_hits hhit'
  obtain ⟨rfl, hdoc⟩ : placed = other ∧ hit.doc = hit'.doc :=
    Snapshot.eq_of_number_eq hplaced hother (doc_lt_of_mem_offers he) (doc_lt_of_mem_offers he') hnumber
  obtain rfl : segment = segment' := Segment.indexed.inj (hsegment.symm.trans hsegment')
  obtain rfl : found = found' := Except.ok.inj (hfound.symm.trans hfound')
  obtain rfl : hit = hit' := by
    cases hit
    cases hit'
    simp_all
  rfl

/-- The matches of a segment come in ascending order. -/
theorem Segment.pairwise_hits (s : Segment) (query : Query) : (s.hits query).Pairwise
    (·.doc < ·.doc) := by
  rw [hits]
  cases s with
  | damaged s => exact .nil
  | indexed s =>
    rw [Segment.search]
    rcases hsearch : s.search query true with failure | hits
    · exact .nil
    · obtain ⟨found, -, rfl⟩ := IndexedSegment.search_eq_ok hsearch
      exact List.pairwise_map.mpr (List.pairwise_lt_range.sublist List.filter_sublist)

/-- **The matches in the segments of a snapshot** come in ascending order. -/
theorem pairwise_offers (query : Query) (core : String) (segments : List Segment) :
    (offers query (Snapshot.ofSegments core segments).segments).Pairwise (·.number < ·.number) := by
  refine List.pairwise_flatMap.mpr ⟨fun placed _ => ?_, ?_⟩
  · exact List.pairwise_map.mpr
      ((placed.segment.pairwise_hits query).imp fun h => Nat.add_lt_add_left h placed.base)
  · refine (pairwise_placeFrom segments 0 0).imp fun {placed other} hbase e he e' he' => ?_
    obtain ⟨hit, hhit, rfl⟩ := List.mem_map.mp he
    obtain ⟨hit', -, rfl⟩ := List.mem_map.mp he'
    have hmem : (placed, hit) ∈ offers query [placed] :=
      mem_offers.mpr ⟨List.mem_singleton_self placed, hhit⟩
    have hdoc : hit.doc < placed.segment.size := doc_lt_of_mem_offers hmem
    show placed.base + hit.doc < other.base + hit'.doc
    omega

/-- Each match in the segments of a snapshot is offered once. -/
theorem nodup_offers (query : Query) (core : String) (segments : List Segment) :
    (offers query (Snapshot.ofSegments core segments).segments).Nodup :=
  (pairwise_offers query core segments).imp fun h heq => Nat.ne_of_lt h (congrArg Offer.number heq)

/-! ### Plain collectors -/

omit [PatternEngines] in
theorem readColumns_indexed {placed : Placed} (h : ∃ segment, placed.segment = .indexed segment)
    (fields : List String) : ∃ columns, readColumns placed.segment fields = .ok columns := by
  obtain ⟨segment, hsegment⟩ := h
  induction fields with
  | nil => exact ⟨[], rfl⟩
  | cons field fields ih =>
    obtain ⟨columns, hcolumns⟩ := ih
    rw [readColumns_cons, hcolumns, hsegment, IndexedSegment.joinKeys_indexed]
    exact ⟨_, rfl⟩

namespace Collector

variable {B L P F : Type} {c : Collector B L P F}

/-- A collector that does nothing about segments but give a fixed answer when it is bound. -/
structure Plain (c : Collector B L P F) (visit : Visit) (fields : List String) : Prop where
  bind_eq : ∀ placed l, c.bind placed l = pure { visit, fields, state := l }
  endSegment_eq : ∀ bound l, c.endSegment bound l = pure l

section Plain

variable {fields : List String} {placed : Placed}

/-- A segment that can be searched has its matches offered. -/
theorem Plain.readSegment_docs (h : c.Plain .docs fields)
    (hsearch : ∃ hits, placed.segment.search query true = .ok hits) (l : L) :
    c.readSegment query l placed =
      (offers query [placed]).foldlM (fun l e => c.collect (.of e.1) e.2 l) l := by
  have hindexed := CanSearch.indexed (List.forall_mem_singleton.mpr hsearch) placed
    (List.mem_singleton_self placed)
  obtain ⟨hits, hhits⟩ := hsearch
  obtain ⟨columns, hcolumns⟩ := readColumns_indexed hindexed fields
  rw [readSegment, h.bind_eq, pure_bind, offers, List.flatMap_singleton, List.foldlM_map, Segment.hits]
  simp only [hcolumns, hhits, Process.ofExcept_ok_bind, h.endSegment_eq, bind_pure]

/-- Any other segment makes the search fail. -/
theorem Plain.readSegment_of_not_search (h : c.Plain .docs fields)
    (hsearch : ¬ ∃ hits, placed.segment.search query true = .ok hits) (l : L) :
    ∃ failure, c.readSegment query l placed = .ofExcept (.error failure) := by
  rw [readSegment, h.bind_eq, pure_bind]
  rcases readColumns placed.segment fields with failure | columns
  · exact ⟨failure, rfl⟩
  rcases hhits : placed.segment.search query true with failure | hits
  · exact ⟨failure, rfl⟩
  · exact absurd ⟨hits, hhits⟩ hsearch

theorem Plain.readSegment_skip (h : c.Plain .skip fields)
    (hcolumns : ∃ columns, readColumns placed.segment fields = .ok columns) (l : L) :
    c.readSegment query l placed = pure l := by
  obtain ⟨columns, hcolumns⟩ := hcolumns
  rw [readSegment, h.bind_eq, pure_bind]
  simp only [hcolumns, Process.ofExcept_ok_bind]

/-- **A group that skips all documents** does no more than start and finish. -/
theorem Plain.readGroup_skip (h : c.Plain .skip fields) {group : List Placed}
    (hcolumns : ∀ placed ∈ group, ∃ columns, readColumns placed.segment fields = .ok columns) :
    c.readGroup query group = c.start >>= c.finish := by
  have hloop : ∀ l, group.foldlM (c.readSegment query) l = pure l := by
    induction group with
    | nil => exact fun _ => rfl
    | cons placed group ih =>
      intro l
      obtain ⟨hfirst, hrest⟩ := List.forall_mem_cons.mp hcolumns
      rw [List.foldlM_cons, h.readSegment_skip hfirst, pure_bind, ih hrest]
  simp only [readGroup, hloop, pure_bind]

end Plain

end Collector

end FederatedSearch
