import FederatedSearch.Proofs.Act.Mirrors
import FederatedSearch.Proofs.Collector.Outcome
import FederatedSearch.Proofs.Engine.Constraints

/-!
# What the main search comes to

The main search runs several collectors at once, of which one gathers the page. Which one depends on
the request, and each of them cuts what it has gathered at the end of the page, group by group. This
module says what they all come to: the hits are the first ones of all hits in one order, which is
known from the matches alone. Neither the caches nor the groups and their schedule nor the window show in
that order. A search that collapses hits may also give up, if an update of a record uses up its budget.

## Main definitions

* `Call.Plan` — what the phases before the main search come to
* `Call.Taken` — every snapshot is that of a core that can be read
* `Call.Orders` — all hits in order
* `Call.Plan.Feasible`, `Call.Describes` — when the main search can succeed, and with which result
* `Call.GivesUp` — a failure for want of a budget

## Main results

* `Call.yields_search`, `Call.comes_search` — searches of a call, whatever the caches hold
* `Call.Orders.unique` — there is one order
* `Call.comes_pageSearch` — the main search, whatever the caches hold
-/

namespace FederatedSearch

/-! ### Lists side by side -/

section Forall₂

variable {α β : Type} {rel : α → β → Prop} {xs : List α} {ys : List β}

theorem forall₂_zip (h : List.Forall₂ rel xs ys) :
    List.Forall₂ (fun x e => e.1 = x ∧ rel x e.2) xs (xs.zip ys) := by
  induction h with
  | nil => exact .nil
  | cons hrel _ ih => exact .cons ⟨rfl, hrel⟩ ih

end Forall₂

/-! ### Sort keys that can be read -/

theorem SortReading.exists_read (r : SortReading) (field : String) {segment : Segment}
    (h : ∃ s, segment = .indexed s) (hit : Hit) :
    ∃ key, r.read field segment hit = .ok key ∧ r.Admits key := by
  obtain ⟨s, rfl⟩ := h
  cases r <;> exact ⟨_, rfl, SortReading.admits_keyOf _ _ _⟩

namespace SortClause

/-- Whatever the clause looks at in another core can be read. -/
def Readable (clause : SortClause) : Prop :=
  ∀ keyField table other, clause.source = .related keyField table other →
    ∀ placed ∈ other.segments, ∃ segment, placed.segment = .indexed segment

theorem exists_key {clause : SortClause} (h : clause.Readable) {placed : Placed}
    (hindexed : ∃ segment, placed.segment = .indexed segment) (bound : Bound) (hit : Hit) :
    ∃ key, clause.key bound placed hit = .ok key ∧ clause.reading.Admits key := by
  rw [key]
  cases hsource : clause.source with
  | own => exact clause.reading.exists_read _ hindexed hit
  | related keyField table other =>
    show ∃ key, (if bound.key keyField hit.doc = noKey then _ else _) = _ ∧ _
    split
    · exact ⟨_, rfl, clause.reading.admits_missingKey⟩
    · rcases hfound : (table.get? (bound.key keyField hit.doc)).bind other.locate with _ | ⟨related, number⟩
      · exact ⟨_, rfl, clause.reading.admits_missingKey⟩
      · obtain ⟨doc, -, hlocate⟩ := Option.bind_eq_some_iff.mp hfound
        have hrelated := h keyField table other hsource related (Snapshot.mem_of_locate hlocate)
        exact clause.reading.exists_read _ hrelated _

end SortClause

theorem Collector.sortable_of_readable {clauses : List SortClause}
    (h : ∀ clause ∈ clauses, clause.Readable) {e : Offer}
    (hindexed : ∃ segment, e.1.segment = .indexed segment) : Sortable clauses e := by
  have hall : ∃ keys, clauses.mapM (fun clause => clause.key (.of e.1) e.1 e.2) = .ok keys ∧
      Fits clauses keys := by
    induction clauses with
    | nil => exact ⟨[], rfl, .nil⟩
    | cons clause clauses ih =>
      obtain ⟨hfirst, hrest⟩ := List.forall_mem_cons.mp h
      obtain ⟨key, hkey, hadmits⟩ := clause.exists_key hfirst hindexed (.of e.1) e.2
      obtain ⟨keys, hkeys, hfits⟩ := ih hrest
      refine ⟨key :: keys, ?_, .cons hadmits hfits⟩
      rw [List.mapM_cons, hkey, ok_bind, hkeys, ok_bind]
      rfl
  exact hall

namespace Call

open Collector

variable {catalog : Catalog} {c : Call}

/-! ### Searches of a call -/

/-- Every snapshot is that of a core all of whose segments can be read. -/
def Taken (c : Call) : Prop :=
  ∀ name snapshot, c.snapshots.find? name = some snapshot →
    ∃ (core : String) (segments : List IndexedSegment),
      snapshot = .ofSegments core (segments.map .indexed)

section Taken

variable (h : c.Taken) {core : String} {snapshot : Snapshot} (hsnapshot : c.snapshot core = .ok snapshot)
include h

theorem Taken.indexed : c.Indexed := by
  intro name snapshot hfind placed hmem
  obtain ⟨core, segments, rfl⟩ := h name snapshot hfind
  obtain ⟨segment, -, heq⟩ := List.mem_map.mp (mem_placeFrom hmem)
  exact ⟨segment, heq.symm⟩

include hsnapshot

theorem Taken.spreads (w : Workshop) : Spreads (groupsOf w snapshot) snapshot.segments where
  perm := flatten_groupsOf_perm w snapshot
  indexed := h.indexed core snapshot (snapshot_eq_ok hsnapshot)

variable [PatternEngines]

theorem Taken.numbered (query : Query) : Numbered (offers query snapshot.segments) := by
  obtain ⟨core, segments, rfl⟩ := h core snapshot (snapshot_eq_ok hsnapshot)
  exact numbered_offers query core _

theorem Taken.nodup (query : Query) : (offers query snapshot.segments).Nodup := by
  obtain ⟨core, segments, rfl⟩ := h core snapshot (snapshot_eq_ok hsnapshot)
  exact nodup_offers query core _

end Taken

variable [PatternEngines]

section Search

variable (hlists : c.Lists catalog) {B L P F : Type} {view : L → List String}
include hlists

/-- **A search of a call** whose groups share nothing comes to what it comes to without the caches. -/
theorem yields_search {collector : Collector Unit L P F} (hquiet : collector.Quiet)
    (hmodest : collector.Modest view) (core : String) (query : Query) :
    Act.Yields (CallStore.Sound catalog) (c.search core query collector)
      (c.snapshot core >>= fun snapshot => collector.outcome c.workshop snapshot query) := by
  refine (Act.yields_ofExcept _).bind_of_ok fun snapshot hsnapshot store hsound => ⟨?_, ?_⟩
  · exact hquiet.agrees_search hmodest c.workshop (hlists.snapshot hsnapshot) hsound.columns _
  · exact Caches.search_keeps collector c.workshop query _ (hlists.snapshot hsnapshot) store.caches hsound

/-- **Any search of a call** comes to what such searches come to without the caches. -/
theorem comes_search {collector : Collector B L P F} (hmodest : collector.Modest view) {core : String}
    {snapshot : Snapshot} (hsnapshot : c.snapshot core = .ok snapshot) {query : Query} {good : F → Prop}
    {bad : Failure → Prop}
    (h : collector.Comes snapshot.core (groupsOf c.workshop snapshot) query good bad) :
    (c.search core query collector).Comes (CallStore.Sound catalog) good bad := by
  have hsegments := hlists.snapshot hsnapshot
  refine Act.comes_of_keeps (search_keeps hlists core query collector) fun store hsound => ?_
  rw [Call.search, hsnapshot]
  exact h.searchGroups hmodest c.workshop
    (fun _ hgroup placed hmem => hsegments placed ((sublist_of_mem_groupsOf hgroup).subset hmem))
    hsound.columns _

end Search

/-! ### What the main search is about -/

/-- What the phases before the main search come to. -/
structure Plan where
  query : Query
  /-- The fields whose keys the main search hands on. -/
  fields : List String
  clauses : List SortClause
  ranks : List RankSource

variable (c) (plan : Plan) (segments : List Placed)

def ratio : Binary32 := effectiveRatio c.request.rankRatio

/-- The matches of the main search with their blended scores. -/
def found : List Offer := blendedOffers plan.ranks c.ratio plan.query segments

/-- All hits in order. If hits are collapsed then those are the records of the keys and the hits
without a key, in relevance order. -/
def Orders (ordered : List Hit) : Prop :=
  match c.request.collapse with
  | some field => ∃ b : BestPerKey, b.Covers (keyed field (c.found plan segments)) ∧
      ordered = sortBy Hit.isBefore (unkeyed field (c.found plan segments) ++ b.hits)
  | none => ordered = (sortBy (SortedHit.isBefore plan.clauses)
      ((c.found plan segments).map (sortedHit plan.clauses))).map (·.hit)

/-- What it takes for the main search to succeed. -/
structure Plan.Feasible : Prop where
  searchable : Searchable plan.query segments
  answers : ∀ field ∈ plan.fields, ∀ placed ∈ segments, placed.segment.Answers plan.query field

/-- An update of the record of a key has used up its budget. -/
def GivesUp (failure : Failure) : Prop :=
  c.request.collapse ≠ none ∧ failure = .retryBudgetExceeded c.settings.retryBudget

/-- The result of the main search: the first of all hits in order, with the number of all hits, the
facets and the keys of all matches. -/
structure Describes (main : MainResult) : Prop where
  page : ∃ ordered, c.Orders plan segments ordered ∧ main.hits = ordered.take c.request.stop.toNat ∧
    main.total = ordered.length
  facets : main.facets =
    (c.request.core c.target).facets.map (facetOf (offers plan.query segments))
  keys : List.Forall₂ (fun field e => e.1 = field ∧
    Answered plan.query field segments (e.2.contains · = true)) plan.fields main.keys

variable {c plan segments}

/-- **There is one order.** -/
theorem Orders.unique {ordered ordered' : List Hit} (h : c.Orders plan segments ordered)
    (h' : c.Orders plan segments ordered') : ordered = ordered' := by
  rw [Orders] at h h'
  cases hcollapse : c.request.collapse with
  | none =>
    rw [hcollapse] at h h'
    exact h.trans h'.symm
  | some field =>
    rw [hcollapse] at h h'
    obtain ⟨b, hb, rfl⟩ := h
    obtain ⟨b', hb', rfl⟩ := h'
    refine Hit.ordersOn_isBefore.sortBy_eq_of_perm (fun _ _ => trivial) (List.Perm.append_left _ ?_)
    exact (hb.records_perm hb').map _

theorem orders_of_collapse_eq_none (hcollapse : c.request.collapse = none) : c.Orders plan segments
    ((sortBy (SortedHit.isBefore plan.clauses)
      ((c.found plan segments).map (sortedHit plan.clauses))).map (·.hit)) := by
  rw [Orders, hcollapse]

/-! ### The main search -/

theorem length_found : (c.found plan segments).length = (offers plan.query segments).length :=
  List.length_map _

/-- Without collapsing every hit is in the order. -/
theorem length_sorted_found : ((sortBy (SortedHit.isBefore plan.clauses)
    ((c.found plan segments).map (sortedHit plan.clauses))).map (·.hit)).length =
      (c.found plan segments).length := by
  rw [List.length_map, length_sortBy, List.length_map]

/-- A page shows the first of all hits in order, and says how many there are. -/
def Shows {F : Type} (c : Call) (plan : Plan) (segments : List Placed)
    (pageOf : F → List Hit × Option Nat) (fruit : F) : Prop :=
  ∃ ordered, c.Orders plan segments ordered ∧ (pageOf fruit).1 = ordered.take c.request.stop.toNat ∧
    (pageOf fruit).2.getD (c.found plan segments).length = ordered.length

section Comes

variable (hlists : c.Lists catalog) (htaken : c.Taken) {snapshot : Snapshot}
  (hsnapshot : c.snapshot c.target = .ok snapshot) (plan : Plan)
include hlists htaken hsnapshot

/-- The main search with some collector for the page, from what that collector comes to. -/
theorem comes_mainSearch {B L P F : Type} {page : Collector B L P F} {view : L → List String}
    (hmodest : page.Modest view) (pageOf : F → List Hit × Option Nat)
    (hpage : (page.blended plan.ranks c.ratio).Comes snapshot.core (groupsOf c.workshop snapshot)
      plan.query (c.Shows plan snapshot.segments pageOf)
      fun failure => c.GivesUp failure ∨ ¬ Searchable plan.query snapshot.segments) :
    (c.mainSearch plan.query page pageOf plan.ranks plan.fields).Comes (CallStore.Sound catalog)
      (fun main => plan.Feasible snapshot.segments ∧ c.Describes plan snapshot.segments main)
      fun failure => c.GivesUp failure ∨ ¬ plan.Feasible snapshot.segments := by
  have hspreads := htaken.spreads hsnapshot c.workshop
  have hratio : page.blended plan.ranks (if plan.ranks.isEmpty then defaultRatio
      else effectiveRatio c.request.rankRatio) = page.blended plan.ranks c.ratio := by
    cases plan.ranks <;> rfl
  have hsearch := comes_search hlists (modest_both (modest_blended plan.ranks c.ratio hmodest)
    (modest_both modest_counting (modest_both (modest_faceting (c.request.core c.target).facets)
      (modest_many (fun field => modest_joinKeys field) plan.fields)))) hsnapshot
    (hspreads.comes_beside snapshot.core (hlists.snapshot hsnapshot) hpage
      (c.request.core c.target).facets plan.fields)
  rw [mainSearch]
  simp only [hratio]
  refine (hsearch.mono (fun _ h => h) ?_).bind ?_
  · rintro failure ((hgives | hnot) | hnot | hnot | ⟨field, hfield, placed, hmem, hcannot⟩)
    · exact .inl hgives
    · exact .inr fun hfeasible => hnot hfeasible.searchable
    · exact .inr fun hfeasible => hnot hfeasible.searchable
    · exact .inr fun hfeasible => hnot (.inr hfeasible.searchable)
    · exact .inr fun hfeasible => hcannot (hfeasible.answers field hfield placed hmem)
  · rintro ⟨fruit, count, facets, keys⟩
      ⟨⟨ordered, horders, hhits, htotal⟩, ⟨hsearch, rfl⟩, ⟨-, rfl⟩, hanswered⟩
    refine Act.comes_pure ⟨⟨hsearch, fun field hfield => ?_⟩, ⟨ordered, horders, hhits, ?_⟩, rfl, ?_⟩
    · obtain ⟨bits, -, hbits⟩ := exists_of_forall₂ hanswered hfield
      exact hbits.answers
    · rw [← htotal, length_found]
    · exact forall₂_zip hanswered

/-- A page in relevance order. -/
theorem comes_mainSearch_mostRelevant (hcollapse : c.request.collapse = none)
    (hempty : plan.clauses = []) :
    (c.mainSearch plan.query (mostRelevant c.request.stop.toNat) (·, none) plan.ranks
      plan.fields).Comes (CallStore.Sound catalog)
      (fun main => plan.Feasible snapshot.segments ∧ c.Describes plan snapshot.segments main)
      fun failure => c.GivesUp failure ∨ ¬ plan.Feasible snapshot.segments := by
  have hspreads := htaken.spreads hsnapshot c.workshop
  refine comes_mainSearch hlists htaken hsnapshot plan (modest_mostRelevant _) _
    ((hspreads.comes_mostRelevant snapshot.core _).mono ?_ fun _ => .inr)
  rintro _ rfl
  refine ⟨_, orders_of_collapse_eq_none hcollapse, ?_, length_sorted_found.symm⟩
  rw [hempty, map_hit_sortBy_nil]
  rfl

/-- A page in the order of the sort fields. -/
theorem comes_mainSearch_firstInOrder (hcollapse : c.request.collapse = none)
    (hreadable : ∀ clause ∈ plan.clauses, clause.Readable) :
    (c.mainSearch plan.query (firstInOrder plan.clauses c.request.stop.toNat)
      (·.map (·.hit), none) plan.ranks plan.fields).Comes (CallStore.Sound catalog)
      (fun main => plan.Feasible snapshot.segments ∧ c.Describes plan snapshot.segments main)
      fun failure => c.GivesUp failure ∨ ¬ plan.Feasible snapshot.segments := by
  have hspreads := htaken.spreads hsnapshot c.workshop
  refine comes_mainSearch hlists htaken hsnapshot plan (modest_firstInOrder _ _) _
    ((hspreads.comes_firstInOrder snapshot.core _
      (fun e he => sortable_of_readable hreadable (hspreads.indexed e.1 (mem_blendedOffers he)))
      (Numbered.blend _ _ (htaken.numbered hsnapshot plan.query))).mono ?_ fun _ => .inr)
  rintro _ rfl
  refine ⟨_, orders_of_collapse_eq_none hcollapse, ?_, length_sorted_found.symm⟩
  rw [← List.map_take]
  rfl

/-- A page of collapsed hits. -/
theorem comes_mainSearch_collapsing {field : String} (hcollapse : c.request.collapse = some field) :
    (c.mainSearch plan.query (collapsing field c.request.stop.toNat c.settings.retryBudget)
      (fun r => (r.hits, some r.groups)) plan.ranks plan.fields).Comes (CallStore.Sound catalog)
      (fun main => plan.Feasible snapshot.segments ∧ c.Describes plan snapshot.segments main)
      fun failure => c.GivesUp failure ∨ ¬ plan.Feasible snapshot.segments := by
  have hspreads := htaken.spreads hsnapshot c.workshop
  refine comes_mainSearch hlists htaken hsnapshot plan (modest_collapsing _ _ _) _
    ((hspreads.comes_collapsing snapshot.core _ _ _).mono ?_ fun failure =>
      Or.imp_left fun hfailure => ⟨hcollapse ▸ Option.some_ne_none field, hfailure⟩)
  rintro _ ⟨b, hb, rfl⟩
  have horders : c.Orders plan snapshot.segments (sortBy Hit.isBefore
      (unkeyed field (c.found plan snapshot.segments) ++ b.hits)) := by
    rw [Orders, hcollapse]
    exact ⟨b, hb, rfl⟩
  refine ⟨_, horders, rfl, ?_⟩
  rw [length_sortBy, List.length_append, Nat.add_comm, BestPerKey.hits, List.length_map]
  rfl

/-- **The main search** succeeds just if it can, unless it gives up. If it succeeds then its hits are the
first of all hits in order. -/
theorem comes_pageSearch (hreadable : ∀ clause ∈ plan.clauses, clause.Readable) :
    (c.pageSearch plan.query plan.clauses plan.ranks plan.fields).Comes (CallStore.Sound catalog)
      (fun main => plan.Feasible snapshot.segments ∧ c.Describes plan snapshot.segments main)
      fun failure => c.GivesUp failure ∨ ¬ plan.Feasible snapshot.segments := by
  rw [pageSearch]
  rcases hcollapse : c.request.collapse with _ | field
  · by_cases hempty : plan.clauses = []
    · simp only [hempty, List.isEmpty_nil, if_true]
      exact comes_mainSearch_mostRelevant hlists htaken hsnapshot plan hcollapse hempty
    · have hsort : plan.clauses.isEmpty = false := by simpa using hempty
      simp only [hsort, Bool.false_eq_true, if_false]
      exact comes_mainSearch_firstInOrder hlists htaken hsnapshot plan hcollapse hreadable
  · exact comes_mainSearch_collapsing hlists htaken hsnapshot plan hcollapse

end Comes

end Call

end FederatedSearch
