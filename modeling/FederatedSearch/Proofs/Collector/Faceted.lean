import FederatedSearch.Proofs.Collector.Facets
import FederatedSearch.Proofs.Collector.Scheduled
import FederatedSearch.Proofs.Search.Arrivals
import FederatedSearch.Proofs.Search.Documents

/-!
# Facets as counts of documents

What a facet lists can be said without tallies: the terms that enough documents have as their text form
in the field, each with the number of these documents, the most frequent first and terms of one frequency
in ascending order. Whatever is asked for, a term that no document has is not listed. The list is cut only
when it is complete.

No two terms are tied in that order. So there is one such facet, and neither the order in which a tally
lists its terms nor the groups that documents were counted in can be told from it.

## Main definitions

* `formCount` — how many documents have a text form
* `FacetRequest.IsAnswer` — the facet that a request asks for

## Main results

* `FacetRequest.isAnswer_report` — the report of a tally is the facet that was asked for
* `FacetRequest.IsAnswer.unique` — there is one such facet
* `Collector.faceting_isAnswer` — searches and arrivals come to the facets that were asked for
-/

namespace FederatedSearch

/-- How many of the documents have a text form in a field. -/
def formCount (docs : List Document) (field term : String) : Nat :=
  docs.countP fun d => (d.field? field).map (·.form) = some term

/-- More documents come first, and of equal counts the lower term. -/
def TermCount.Above (x y : TermCount) : Prop := y.count < x.count ∨ x.count = y.count ∧ x.term < y.term

/-- The facet that the request asks for. -/
structure FacetRequest.IsAnswer (r : FacetRequest) (docs : List Document) (f : Facet) : Prop where
  field_eq : f.field = r.field
  counts_eq : ∃ all : List TermCount,
    (∀ x, x ∈ all ↔ max r.minCount.toNat 1 ≤ x.count ∧ x.count = formCount docs r.field x.term) ∧
      all.Pairwise TermCount.Above ∧
      f.counts = match r.limit with
        | some limit => all.take limit.toNat
        | none => all

/-! ### The order of terms -/

namespace TermCount

variable {x y z : TermCount}

theorem precedes_iff : x.precedes y = true ↔ y.count < x.count ∨ x.count = y.count ∧ x.term ≤ y.term := by
  simp [precedes]

theorem precedes_trans (hxy : x.precedes y = true) (hyz : y.precedes z = true) : x.precedes z = true := by
  rw [precedes_iff] at *
  rcases hxy with hxy | ⟨hxy, hterms⟩ <;> rcases hyz with hyz | ⟨hyz, hterms'⟩
  · exact .inl (hyz.trans hxy)
  · exact .inl (hyz ▸ hxy)
  · exact .inl (hxy ▸ hyz)
  · exact .inr ⟨hxy.trans hyz, String.le_trans hterms hterms'⟩

theorem precedes_total (x y : TermCount) : (x.precedes y || y.precedes x) = true := by
  rw [Bool.or_eq_true, precedes_iff, precedes_iff]
  rcases Nat.lt_trichotomy x.count y.count with hlt | heq | hgt
  · exact .inr (.inl hlt)
  · rcases String.le_total x.term y.term with hle | hle
    · exact .inl (.inr ⟨heq, hle⟩)
    · exact .inr (.inr ⟨heq.symm, hle⟩)
  · exact .inl (.inl hgt)

theorem Above.asymm (h : x.Above y) : ¬ y.Above x := by
  rintro (hyx | ⟨hyx, hterms⟩) <;> rcases h with hxy | ⟨hxy, hterms'⟩
  · exact absurd hxy (Nat.not_lt.mpr hyx.le)
  · exact absurd hxy hyx.ne
  · exact absurd hyx hxy.ne
  · exact String.lt_irrefl _ (String.lt_trans hterms hterms')

theorem above_of_precedes (h : x.precedes y = true) (hterms : x.term ≠ y.term) : x.Above y := by
  rcases precedes_iff.mp h with hlt | ⟨heq, hle⟩
  · exact .inl hlt
  · exact .inr ⟨heq, lt_of_not_lt_of_ne (String.not_lt.mpr hle) hterms.symm⟩

/-- Different terms are put in order. -/
theorem pairwise_above_mergeSort {listed : List TermCount}
    (hterms : listed.Pairwise (·.term ≠ ·.term)) : (listed.mergeSort precedes).Pairwise Above := by
  have hsorted : (listed.mergeSort precedes).Pairwise (·.precedes · = true) :=
    List.pairwise_mergeSort (fun x y z => @precedes_trans x y z) precedes_total listed
  have hdistinct : (listed.mergeSort precedes).Pairwise (·.term ≠ ·.term) :=
    ((List.mergeSort_perm listed precedes).pairwise_iff fun hne => hne.symm).mpr hterms
  exact (hsorted.and hdistinct).imp fun hxy => above_of_precedes hxy.1 hxy.2

end TermCount

/-! ### The facet that is asked for -/

namespace FacetRequest

variable {r : FacetRequest} {docs : List Document}

/-- The terms that a report lists, before it puts them in order. -/
theorem mem_listed {tally : Tally} {texts : List String} (h : tally.Counts texts)
    (htexts : ∀ term, texts.count term = formCount docs r.field term) {x : TermCount} :
    x ∈ (tally.entries.filter (r.minCount.toNat ≤ ·.2)).map (fun e => ⟨e.1, e.2⟩) ↔
      max r.minCount.toNat 1 ≤ x.count ∧ x.count = formCount docs r.field x.term := by
  have hentry : (x.term, x.count) ∈ tally.entries ↔
      x.count ≠ 0 ∧ x.count = formCount docs r.field x.term := by
    rw [NameMap.mem_entries_iff, h, htexts]
    split
    · rename_i hzero
      rw [hzero]
      exact iff_of_false nofun fun hx => hx.1 hx.2
    · rename_i hpos
      rw [Option.some.injEq]
      exact ⟨fun hx => ⟨hx ▸ hpos, hx.symm⟩, fun hx => hx.2.symm⟩
  constructor
  · intro hx
    obtain ⟨⟨term, count⟩, he, rfl⟩ := List.mem_map.mp hx
    obtain ⟨he, hmin⟩ := List.mem_filter.mp he
    obtain ⟨hpos, hcount⟩ := hentry.mp he
    have hmin : r.minCount.toNat ≤ count := of_decide_eq_true hmin
    exact ⟨Nat.max_le.mpr ⟨hmin, Nat.one_le_iff_ne_zero.mpr hpos⟩, hcount⟩
  · rintro ⟨hmin, hcount⟩
    obtain ⟨hmin, hpos⟩ := Nat.max_le.mp hmin
    refine List.mem_map.mpr ⟨(x.term, x.count), List.mem_filter.mpr ⟨?_, decide_eq_true hmin⟩, rfl⟩
    exact hentry.mpr ⟨Nat.one_le_iff_ne_zero.mp hpos, hcount⟩

/-- **The report** of a tally that counts the text forms is the facet that was asked for. -/
theorem isAnswer_report {tally : Tally} {texts : List String} (h : tally.Counts texts)
    (htexts : ∀ term, texts.count term = formCount docs r.field term) :
    r.IsAnswer docs (r.report tally) := by
  let listed : List TermCount :=
    (tally.entries.filter (r.minCount.toNat ≤ ·.2)).map fun e => ⟨e.1, e.2⟩
  have hterms : listed.Pairwise (·.term ≠ ·.term) := by
    refine List.pairwise_map.mpr ((tally.ascending.filter _).imp fun {e e'} hlt heq => ?_)
    have hlt : e.1 < e'.1 := hlt
    rw [show e.1 = e'.1 from heq] at hlt
    exact String.lt_irrefl _ hlt
  refine ⟨rfl, listed.mergeSort TermCount.precedes, fun x => ?_,
    TermCount.pairwise_above_mergeSort hterms, ?_⟩
  · rw [List.mem_mergeSort, mem_listed h htexts]
  · cases hlimit : r.limit with
    | none => simp only [report, hlimit, listed]
    | some limit => simp only [report, hlimit, listed]

/-- **There is one such facet.** -/
theorem IsAnswer.unique {f g : Facet} (hf : r.IsAnswer docs f) (hg : r.IsAnswer docs g) : f = g := by
  obtain ⟨all, hmem, hpairwise, hcounts⟩ := hf.counts_eq
  obtain ⟨all', hmem', hpairwise', hcounts'⟩ := hg.counts_eq
  have hnodup : ∀ {l : List TermCount}, l.Pairwise TermCount.Above → l.Nodup := fun h =>
    h.imp fun {x y} hxy heq => (heq ▸ hxy).asymm (heq ▸ hxy)
  have hperm : all.Perm all' :=
    (List.perm_ext_iff_of_nodup (hnodup hpairwise) (hnodup hpairwise')).mpr fun x => by rw [hmem, hmem']
  obtain rfl : all = all' := hperm.eq_of_pairwise
    (fun x y _ _ hxy hyx => absurd hyx hxy.asymm) hpairwise hpairwise'
  cases f
  cases g
  exact congrArg₂ Facet.mk (hf.field_eq.trans hg.field_eq.symm) (hcounts.trans hcounts'.symm)

end FacetRequest

/-! ### Searches and arrivals -/

namespace Collector

variable {requests : List FacetRequest} {query : Query} {core : String} {segments : List Segment}

/-- The text forms of the matches are those of the documents. -/
theorem count_forms [PatternEngines]
    (hsegments : ∀ placed ∈ (Snapshot.ofSegments core segments).segments,
      ∃ hits, placed.segment.search query true = .ok hits) {items : List Offer}
    (hitems : items.Perm (offers query (Snapshot.ofSegments core segments).segments))
    (field term : String) :
    (items.filterMap (Offer.form? field)).count term =
      formCount ((documentsOf query (Snapshot.ofSegments core segments).segments).map (·.1)) field
        term := by
  have hforms : (offers query (Snapshot.ofSegments core segments).segments).map (Offer.form? field) =
      (documentsOf query (Snapshot.ofSegments core segments).segments).map
        fun e => (e.1.field? field).map (·.form) := by
    refine map_offers_eq hsegments fun placed s d doc hsegment hget => ?_
    rw [Offer.form?, hsegment, Segment.value, IndexedSegment.value, hget]
    rfl
  have hread : ∀ e : Offer, ((Offer.form? field e).map (· == term)).getD false =
      decide (Offer.form? field e = some term) := fun e => by
    cases Offer.form? field e with
    | none => rfl
    | some text => simp [beq_eq_decide]
  calc (items.filterMap (Offer.form? field)).count term
      = items.countP fun e => Offer.form? field e = some term := by
        rw [List.count, List.countP_filterMap, funext hread]
    _ = (offers query (Snapshot.ofSegments core segments).segments).countP
          fun e => Offer.form? field e = some term := hitems.countP_eq _
    _ = ((offers query (Snapshot.ofSegments core segments).segments).map
          (Offer.form? field)).countP (· = some term) := by
        rw [List.countP_map]
        rfl
    _ = formCount ((documentsOf query (Snapshot.ofSegments core segments).segments).map (·.1)) field
          term := by
        rw [hforms, formCount, List.countP_map, List.countP_map]
        rfl

section OfSegments

variable [PatternEngines] (hsegments : ∀ placed ∈ (Snapshot.ofSegments core segments).segments,
  ∃ hits, placed.segment.search query true = .ok hits)
include hsegments

/-- The facets of the matches are those that were asked for. -/
theorem isAnswer_facetOf (requests : List FacetRequest) {items : List Offer}
    (hitems : items.Perm (offers query (Snapshot.ofSegments core segments).segments)) :
    List.Forall₂ (fun r f => r.IsAnswer
      ((documentsOf query (Snapshot.ofSegments core segments).segments).map (·.1)) f)
      requests (requests.map (facetOf items)) := by
  refine List.forall₂_map_right_iff.mpr (List.forall₂_same.mpr fun r _ => ?_)
  exact FacetRequest.isAnswer_report (Tally.counts_ofTexts _) (count_forms hsegments hitems r.field)

/-- There is one answer. -/
theorem eq_map_facetOf_iff {items : List Offer}
    (hitems : items.Perm (offers query (Snapshot.ofSegments core segments).segments))
    {facets : List Facet} :
    facets = requests.map (facetOf items) ↔ List.Forall₂ (fun r f => r.IsAnswer
      ((documentsOf query (Snapshot.ofSegments core segments).segments).map (·.1)) f) requests facets := by
  have hanswers := isAnswer_facetOf hsegments requests hitems
  constructor
  · rintro rfl
    exact hanswers
  · exact fun hfacets => List.right_unique_forall₂' (fun _ _ _ hf hg => hf.unique hg) hfacets hanswers

theorem deliver_faceting {count : Nat} {arrivals : List (Nat × Offer)}
    (hcount : ∀ arrival ∈ arrivals, arrival.1 < count)
    (harrivals : (arrivals.map (·.2)).Perm (offers query (Snapshot.ofSegments core segments).segments))
    {facets : List Facet} :
    (((faceting requests).deliver count arrivals).result ()).1 = .ok facets ↔
      List.Forall₂ (fun r f => r.IsAnswer
        ((documentsOf query (Snapshot.ofSegments core segments).segments).map (·.1)) f)
        requests facets := by
  have hperm := (flatten_arrivedAt_perm hcount).trans harrivals
  have hends : Meets (· = requests.map (facetOf ((List.range count).map (arrivedAt arrivals)).flatten))
      (fun _ => False) (((faceting requests).deliver count arrivals).result ()).1 :=
    (takes_faceting fun e he => indexed_of_mem_offers (harrivals.mem_iff.mp he)).deliver hcount
      (fun _ hmem => List.mem_map_of_mem hmem) (fun _ => id)
      fun _ _ _ hall => by rw [merge_faceting hall]; exact (rfl : requests.map _ = _)
  rw [hends.eq_ok_iff (fun _ _ hx hy => hx.trans hy.symm) (fun _ _ _ => id)]
  exact eq_map_facetOf_iff hsegments hperm

end OfSegments

/-- **Facets.** Let segments be spread over groups in whatever way, with the steps of the groups on whatever
schedule. A search for facets succeeds just if nothing is asked for or every segment can be searched. Then
it answers the requests one by one: each facet lists the text forms that enough of the matching live
documents have in the field, with their numbers, the most frequent first, cut when it is complete. So do
groups that count the matches one at a time, in whatever order these arrive and wherever each of them
does. -/
theorem faceting_isAnswer [PatternEngines] {catalog : Catalog} {core : String}
    {segments : List Segment} (query : Query) (requests : List FacetRequest)
    (hlists : ∀ placed ∈ (Snapshot.ofSegments core segments).segments, catalog.Lists placed.segment) :
    let snapshot := Snapshot.ofSegments core segments
    let c := faceting requests
    let searchable := ∀ placed ∈ snapshot.segments, ∃ hits, placed.segment.search query true = .ok hits
    let docs := (documentsOf query snapshot.segments).map (·.1)
    (∀ (w : Workshop) (groups : List (List Placed)) (schedule : Schedule) (columns : KeyColumns),
      groups.flatten.Perm snapshot.segments → columns.Sound catalog → ∀ facets,
        ((c.searchGroups w schedule core groups query).result (columns, ())).1 = .ok facets ↔
          (requests = [] ∨ searchable) ∧ List.Forall₂ (fun r f => r.IsAnswer docs f) requests facets) ∧
      (searchable → ∀ (count : Nat) (arrivals : List (Nat × Offer)),
        (∀ arrival ∈ arrivals, arrival.1 < count) →
          (arrivals.map (·.2)).Perm (offers query snapshot.segments) → ∀ facets,
            ((c.deliver count arrivals).result ()).1 = .ok facets ↔
              List.Forall₂ (fun r f => r.IsAnswer docs f) requests facets) := by
  intro snapshot c searchable docs
  refine ⟨fun w groups schedule columns hgroups hsound facets => ?_,
    fun hsearchable count arrivals hcount harrivals facets =>
      deliver_faceting hsearchable hcount harrivals⟩
  have hlists' := forall_group_of_perm hlists hgroups
  by_cases hrequests : requests = []
  · subst hrequests
    have hends := (comes_faceting_nil core groups query).searchGroups (modest_faceting []) w hlists' hsound
      schedule
    rw [hends.eq_ok_iff (fun _ _ hx hy => hx.trans hy.symm) (fun _ _ _ => id), List.forall₂_nil_left_iff]
    exact ⟨fun hfacets => ⟨.inl rfl, hfacets⟩, fun hfacets => hfacets.2⟩
  · have hends := (comes_faceting core groups query hrequests).searchGroups (modest_faceting requests) w
      hlists' hsound schedule
    rw [hends.eq_ok_iff (fun _ _ hx hy => hx.2.trans hy.2.symm) fun _ hx _ hno => hno hx.1]
    simp only [hrequests, false_or]
    have hcan : CanSearch query groups.flatten ↔ searchable :=
      ⟨fun h => h.perm hgroups, fun h => CanSearch.perm h hgroups.symm⟩
    rw [hcan]
    exact and_congr_right fun hsearchable => eq_map_facetOf_iff hsearchable (offers_perm query hgroups)

/-- Two segments of a library, each with a red document. -/
def lowerShelf : IndexedSegment where
  core := "library"
  identity := ⟨1⟩
  docs := #[{ id := "a1", fields := .ofList [("color", .text "blue")] },
    { id := "a2", fields := .ofList [("color", .text "red")] }]

def upperShelf : IndexedSegment where
  core := "library"
  identity := ⟨2⟩
  docs := #[{ id := "b1", fields := .ofList [("color", .text "red")] }, { id := "b2" }]

def shelves : List Segment := [.indexed lowerShelf, .indexed upperShelf]

/-- What is published under the two identities. -/
def shelfCatalog : Catalog := fun id => shelves.find? (·.identity = id)

/-- The matches of the first segment arrive at the second group, and those of the second one at the first
group. -/
def crossed : List (Nat × Offer) :=
  (offers .all (Snapshot.ofSegments "library" shelves).segments).map fun e => (1 - e.1.ord, e)

/-- The most frequent color, and all colors. -/
def colorRequests : List FacetRequest := [{ field := "color", limit := some 1 },
  { field := "color", minCount := 0 }]

/-- The counts of both groups are added up before the first list is cut. -/
theorem faceting_isAnswer_shelves :
    let snapshot := Snapshot.ofSegments "library" shelves
    let c := faceting colorRequests
    let facets : List Facet := [⟨"color", [⟨"red", 2⟩]⟩, ⟨"color", [⟨"red", 2⟩, ⟨"blue", 1⟩]⟩]
    ((c.searchGroups ⟨1, fun _ => true⟩ [⟨1, true⟩, ⟨0, false⟩] "library" [snapshot.segments.reverse]
        .all).result ({}, ())).1 = .ok facets ∧
      ((c.deliver 2 crossed).result ()).1 = .ok facets := by
  intro snapshot c facets
  have hlists : ∀ placed ∈ snapshot.segments, shelfCatalog.Lists placed.segment := by
    simp [snapshot, Snapshot.ofSegments, placeFrom, shelves, lowerShelf, upperShelf, Catalog.Lists,
      shelfCatalog, Segment.identity]
  have hsearchable : ∀ placed ∈ snapshot.segments, ∃ hits, placed.segment.search .all true = .ok hits := by
    simp only [snapshot, Snapshot.ofSegments, placeFrom, shelves, List.forall_mem_cons]
    exact ⟨(IndexedSegment.exists_search_iff true).mpr rfl,
      (IndexedSegment.exists_search_iff true).mpr rfl, fun _ hmem => absurd hmem List.not_mem_nil⟩
  have hfacets : colorRequests.map (facetOf (offers .all snapshot.segments)) = facets := by
    have htally : (Tally.ofTexts ((offers .all snapshot.segments).filterMap
        (Offer.form? "color"))).entries = [("blue", 1), ("red", 2)] := by decide +kernel
    have hsort : ([⟨"blue", 1⟩, ⟨"red", 2⟩] : List TermCount).mergeSort TermCount.precedes =
        [⟨"red", 2⟩, ⟨"blue", 1⟩] := by simp [List.mergeSort, TermCount.precedes]
    simp only [colorRequests, List.map_cons, List.map_nil, facetOf, FacetRequest.report, htally]
    exact congrArg (fun sorted => [Facet.mk "color" (sorted.take 1), Facet.mk "color" sorted]) hsort
  have hanswers : List.Forall₂ (fun r f => r.IsAnswer ((documentsOf .all snapshot.segments).map (·.1)) f)
      colorRequests facets := hfacets ▸ isAnswer_facetOf hsearchable _ (.refl _)
  have hcount : ∀ arrival ∈ crossed, arrival.1 < 2 := by
    intro arrival hmem
    obtain ⟨e, -, rfl⟩ := List.mem_map.mp hmem
    exact Nat.lt_succ_of_le (Nat.sub_le _ _)
  have hcrossed : (crossed.map (·.2)).Perm (offers .all snapshot.segments) := by
    rw [crossed, List.map_map]
    exact .of_eq (List.map_id _)
  obtain ⟨hsearches, harrivals⟩ := faceting_isAnswer .all colorRequests hlists
  refine ⟨(hsearches _ _ _ {} ?_ KeyColumns.sound_empty _).mpr
    ⟨.inr hsearchable, hanswers⟩, (harrivals hsearchable 2 crossed hcount hcrossed _).mpr hanswers⟩
  rw [List.flatten_singleton]
  exact List.reverse_perm _

end Collector

end FederatedSearch
