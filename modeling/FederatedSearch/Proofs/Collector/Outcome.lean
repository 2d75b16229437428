import FederatedSearch.Proofs.Collector.Collapsed
import FederatedSearch.Proofs.Collector.Facets
import FederatedSearch.Proofs.Collector.Pages
import FederatedSearch.Proofs.Collector.Quiet

/-!
# What searches come to

A search spreads the segments over groups, and the steps of the groups follow a schedule. This module says
what searches come to for each collector of the library, in terms of the segments alone: neither the groups
nor the schedule show. The one exception is a search that collapses hits. On some schedules groups that
update the same record use up the budget for that, and then the search fails.

## Main definitions

* `Spreads` — the groups spread segments that can all be read

## Main results

* `Comes.outcome` — the outcome of a search of a snapshot
* `Spreads.comes_faceting`, `Spreads.comes_joinKeys`, `Spreads.comes_beside`
* `Spreads.comes_mostRelevant`, `Spreads.comes_firstInOrder`, `Spreads.comes_collapsing` — the collectors of
  a page
-/

namespace FederatedSearch

/-- The groups spread these segments, all of which can be read. -/
structure Spreads (groups : List (List Placed)) (segments : List Placed) : Prop where
  perm : groups.flatten.Perm segments
  indexed : ∀ placed ∈ segments, ∃ segment, placed.segment = .indexed segment

variable [PatternEngines]

namespace Collector

variable {B L P F : Type} {query : Query} {groups : List (List Placed)} {segments : List Placed}

/-- **The outcome** of a search is one of the things that such searches come to. -/
theorem Comes.outcome {c : Collector B L P F} {w : Workshop} {snapshot : Snapshot} {good : F → Prop}
    {bad : Failure → Prop} (h : c.Comes snapshot.core (groupsOf w snapshot) query good bad)
    {view : L → List String} (hmodest : c.Modest view) {catalog : Catalog}
    (hlists : ∀ placed ∈ snapshot.segments, catalog.Lists placed.segment) :
    Meets good bad (c.outcome w snapshot query) :=
  h.searchGroups hmodest w
    (fun _ hgroup placed hmem => hlists placed ((sublist_of_mem_groupsOf hgroup).subset hmem))
    KeyColumns.sound_empty []

/-- A page of collapsed hits. -/
theorem comes_collapsing_blended (ranks : List RankSource) (ratio : Binary32) (core : String)
    (groups : List (List Placed)) (query : Query) (field : String) (limit budget : Nat) :
    ((collapsing field limit budget).blended ranks ratio).Comes core groups query
      (fun r => CanSearch query groups.flatten ∧ ∃ b : BestPerKey,
        b.Covers (keyed field (blendedOffers ranks ratio query groups.flatten)) ∧
        r = ⟨best Hit.isBefore limit
            (unkeyed field (blendedOffers ranks ratio query groups.flatten) ++ b.hits),
          b.size + (unkeyed field (blendedOffers ranks ratio query groups.flatten)).length⟩)
      fun failure => failure = .retryBudgetExceeded budget ∨ ¬ CanSearch query groups.flatten := by
  have hparts : (groups.map (blendedOffers ranks ratio query)).flatten.Perm
      (blendedOffers ranks ratio query groups.flatten) := .of_eq (blendedOffers_flatten groups)
  refine (takes_collapsing field limit budget _ True).comes_blended (plain_collapsing field limit budget)
    (fun failure hgives => (hgives.failure_eq : failure = .retryBudgetExceeded budget))
    (fun t partials ht hall => ?_) trivial core
  obtain ⟨b, hcovers, hmerge⟩ := merge_takes_collapsing hparts ht hall
  rw [hmerge]
  exact ⟨b, hcovers, rfl⟩

end Collector

namespace Spreads

open Collector

variable {B L P F : Type} {query : Query} {groups : List (List Placed)} {segments : List Placed}
  (h : Spreads groups segments) (core : String)
include h

theorem canSearch_iff : CanSearch query groups.flatten ↔ Searchable query segments := by
  rw [← FederatedSearch.canSearch_iff h.indexed]
  exact ⟨fun hsearch => hsearch.perm h.perm, fun hsearch => hsearch.perm h.perm.symm⟩

/-! ### Matches, facets and keys -/

theorem comes_counting : counting.Comes core groups query
    (fun count => Searchable query segments ∧ count = (offers query segments).length)
    fun _ => ¬ Searchable query segments := by
  rw [← h.canSearch_iff, ← (offers_perm query h.perm).length_eq]
  exact Collector.comes_counting core groups query

/-- Without requests no document has to be seen. -/
theorem comes_faceting (requests : List FacetRequest) : (faceting requests).Comes core groups query
    (fun facets => (requests = [] ∨ Searchable query segments) ∧
      facets = requests.map (facetOf (offers query segments)))
    fun _ => ¬ (requests = [] ∨ Searchable query segments) := by
  by_cases hnone : requests = []
  · subst hnone
    exact (comes_faceting_nil core groups query).mono (fun _ hnil => ⟨.inl rfl, hnil⟩) fun _ => False.elim
  · rw [← h.canSearch_iff, ← funext (facetOf_perm (offers_perm query h.perm))]
    simp only [hnone, false_or]
    exact Collector.comes_faceting core groups query hnone

/-- The keys of all segments, or there is a segment that cannot answer. -/
theorem comes_joinKeys {catalog : Catalog} (hlists : ∀ placed ∈ segments, catalog.Lists placed.segment)
    (field : String) : (joinKeys field).Comes core groups query
      (fun bits => Answered query field segments (bits.contains · = true))
      fun _ => ∃ placed ∈ segments, ¬ placed.segment.Answers query field := by
  have hgathers := gathersKeys_joinKeys query field catalog
  have hmem : ∀ group ∈ groups, ∀ placed ∈ group, placed ∈ segments :=
    forall_group_of_perm (fun _ => id) h.perm
  have hgroups : ∀ group ∈ groups, ((joinKeys field).readGroup query group).Ensures
      (.keeping fun _ => True) (fun bits _ => Answered query field group (bits.contains · = true))
      (fun _ => ∃ placed ∈ segments, ¬ placed.segment.Answers query field) (joinKeys field).board := by
    refine fun group hgroup => (hgathers.ensures_readGroup (fun placed hplaced =>
      hlists placed (hmem group hgroup placed hplaced)) trivial).mono (fun _ _ _ h => h) ?_
    rintro _ ⟨placed, hplaced, hcannot⟩
    exact ⟨placed, hmem group hgroup placed hplaced, hcannot⟩
  refine fun _ => ensures_readScheduled hgroups (fun _ _ _ _ _ hp => hp) (fun t partials _ hall => ?_)
    (fun _ _ _ => trivial) core
  exact (hgathers.merge_answered hall t _).mono (fun _ hfound => hfound.perm h.perm) fun _ h => h

/-- A collector with all collectors for matches, facets and keys beside it. -/
theorem comes_beside {catalog : Catalog} (hlists : ∀ placed ∈ segments, catalog.Lists placed.segment)
    {page : Collector B L P F} {good : F → Prop} {bad : Failure → Prop}
    (hpage : page.Comes core groups query good bad) (requests : List FacetRequest)
    (fields : List String) :
    (page.both (counting.both ((faceting requests).both (many (fields.map joinKeys))))).Comes core groups
      query
      (fun x => good x.1 ∧ (Searchable query segments ∧ x.2.1 = (offers query segments).length) ∧
        ((requests = [] ∨ Searchable query segments) ∧
          x.2.2.1 = requests.map (facetOf (offers query segments))) ∧
        List.Forall₂ (fun field bits => Answered query field segments (bits.contains · = true)) fields
          x.2.2.2)
      fun failure => bad failure ∨ ¬ Searchable query segments ∨
        ¬ (requests = [] ∨ Searchable query segments) ∨
          ∃ field ∈ fields, ∃ placed ∈ segments, ¬ placed.segment.Answers query field :=
  hpage.both ((h.comes_counting core).both ((h.comes_faceting core requests).both
    (comes_many fun field _ => h.comes_joinKeys core hlists field)))

/-! ### Pages -/

variable {ranks : List RankSource} {ratio : Binary32}

theorem comes_mostRelevant (limit : Nat) :
    ((mostRelevant limit).blended ranks ratio).Comes core groups query
      (fun page => page = best Hit.isBefore limit
        ((blendedOffers ranks ratio query segments).map Offer.hit))
      fun _ => ¬ Searchable query segments := by
  rw [← h.canSearch_iff]
  refine (Collector.comes_mostRelevant ranks ratio core groups query limit).mono ?_ fun _ h => h
  rintro _ ⟨-, rfl⟩
  exact Hit.ordersOn_isBefore.best_perm limit (fun _ _ => trivial)
    ((blendedOffers_perm h.perm).map Offer.hit)

/-- With a limit of 0 there are no first hits, and none is looked for. -/
theorem comes_firstInOrder {clauses : List SortClause} (limit : Nat)
    (hsortable : ∀ e ∈ blendedOffers ranks ratio query segments, Sortable clauses e)
    (hnumbered : Numbered (blendedOffers ranks ratio query segments)) :
    ((firstInOrder clauses limit).blended ranks ratio).Comes core groups query
      (fun page => page = best (SortedHit.isBefore clauses) limit
        ((blendedOffers ranks ratio query segments).map (sortedHit clauses)))
      fun _ => ¬ Searchable query segments := by
  have hperm : (blendedOffers ranks ratio query groups.flatten).Perm
      (blendedOffers ranks ratio query segments) := blendedOffers_perm h.perm
  by_cases hzero : limit = 0
  · subst hzero
    have hindexed : ∀ placed ∈ groups.flatten, ∃ segment, placed.segment = .indexed segment :=
      fun placed hmem => h.indexed placed (h.perm.mem_iff.mp hmem)
    refine (comes_firstInOrder_blended_zero ranks ratio core groups query clauses hindexed).mono ?_
      fun _ => False.elim
    rintro _ rfl
    rw [best, List.take_zero]
  · have hnumbered' : Numbered (blendedOffers ranks ratio query groups.flatten) :=
      hnumbered.perm hperm.symm
    refine (comes_firstInOrder_blended ranks ratio core groups query hzero hnumbered').mono ?_ ?_
    · rintro page ⟨-, hpage⟩
      rw [hpage.eq_best hnumbered']
      refine (ordersOn_sortedHit hsortable hnumbered).best_perm limit (fun x hx => ?_) (hperm.map _)
      obtain ⟨e, he, rfl⟩ := List.mem_map.mp hx
      exact ⟨e, hperm.mem_iff.mp he, rfl⟩
    · rintro failure (hunread | hsearch)
      · exact absurd hunread (not_unread fun e he => hsortable e (hperm.mem_iff.mp he))
      · rwa [h.canSearch_iff] at hsearch

/-- The collapsed hits, or updates of a record have used up the budget. -/
theorem comes_collapsing (field : String) (limit budget : Nat) :
    ((collapsing field limit budget).blended ranks ratio).Comes core groups query
      (fun r => ∃ b : BestPerKey, b.Covers (keyed field (blendedOffers ranks ratio query segments)) ∧
        r = ⟨best Hit.isBefore limit (unkeyed field (blendedOffers ranks ratio query segments) ++ b.hits),
          b.size + (unkeyed field (blendedOffers ranks ratio query segments)).length⟩)
      fun failure => failure = .retryBudgetExceeded budget ∨ ¬ Searchable query segments := by
  have hperm : (blendedOffers ranks ratio query groups.flatten).Perm
      (blendedOffers ranks ratio query segments) := blendedOffers_perm h.perm
  rw [← h.canSearch_iff]
  refine (comes_collapsing_blended ranks ratio core groups query field limit budget).mono ?_ fun _ h => h
  rintro _ ⟨-, b, hcovers, rfl⟩
  refine ⟨b, hcovers.perm (keyed_perm hperm), ?_⟩
  have hunkeyed : (unkeyed field (blendedOffers ranks ratio query groups.flatten)).Perm
      (unkeyed field (blendedOffers ranks ratio query segments)) := unkeyed_perm hperm
  rw [hunkeyed.length_eq,
    Hit.ordersOn_isBefore.best_perm limit (fun _ _ => trivial) (hunkeyed.append_right b.hits)]

end Spreads

end FederatedSearch
