import FederatedSearch.Proofs.Collector.Modest
import FederatedSearch.Proofs.Collector.Scheduled
import FederatedSearch.Proofs.Search.Arrivals
import FederatedSearch.Proofs.Search.Documents
import FederatedSearch.Proofs.Sort.Keys
import FederatedSearch.Proofs.Sort.Precedes

/-!
# The first of the matches in a sort order

A group gathers matches with their sort keys and cuts what it has to the first ones now and then; what
groups have in the end is cut once more and merged. No cut loses a match of the page, because the sort
order is a total order: what is cut off a group's buffer has enough matches before it that are kept.

All this hinges on the keys, and there may be none: a key is read from a segment, maybe from one of
another core, and that can fail. Then the search fails, and nothing is said about a page. The keys of a
match are of the kinds that the clauses read, whatever the documents hold.

## Main definitions

* `Collector.SortsAs` — a match with its keys
* `Collector.ListsFirst` — a page of matches

## Main results

* `fits_of_isKey` — the keys of a match fit the clauses
* `Collector.takes_firstInOrder`, `Collector.merge_firstInOrder` — one match, and the merge
* `Collector.comes_firstInOrder` — what searches come to
* `Collector.firstInOrder_listsFirst` — the order, and what searches and arrivals list
-/

namespace FederatedSearch

theorem fits_of_isKey {clauses : List SortClause} {e : Offer} {keys : List SortKey}
    (h : List.Forall₂ (fun c key => c.IsKey e key) clauses keys) : Fits clauses keys :=
  h.imp fun _ _ hkey => hkey.admits

namespace Collector

open Process

variable {clauses : List SortClause} {limit : Nat} {items done : List Offer}

/-- A match as a hit of the snapshot, with its key under each clause. -/
def SortsAs (clauses : List SortClause) (e : Offer) (x : SortedHit) : Prop :=
  x.hit = e.hit ∧ List.Forall₂ (fun c key => c.IsKey e key) clauses x.keys

/-- All matches have their keys, and these are the first of the hits. -/
def ListsFirst (clauses : List SortClause) (limit : Nat) (items : List Offer) (page : List SortedHit) :
    Prop :=
  ∃ hits, List.Forall₂ (SortsAs clauses) items hits ∧
    FirstOf (SortedHit.Precedes clauses) limit hits page

theorem ListsFirst.perm {more : List Offer} {page : List SortedHit}
    (h : ListsFirst clauses limit items page) (hperm : items.Perm more) :
    ListsFirst clauses limit more page := by
  obtain ⟨hits, hhits, sorted, hsort, hsorted, rfl⟩ := h
  obtain ⟨hits', hhits', hperm'⟩ := List.perm_comp_forall₂ hperm.symm hhits
  exact ⟨hits', hhits', sorted, hsort.trans hperm'.symm, hsorted, rfl⟩

theorem ListsFirst.eq_nil {page : List SortedHit} (h : ListsFirst clauses 0 items page) : page = [] := by
  obtain ⟨_, -, _, -, -, rfl⟩ := h
  rfl

/-- Some match has no keys, as they cannot be read. -/
def Unread (clauses : List SortClause) (items : List Offer) : Prop :=
  ∃ e ∈ items, ∀ x, ¬ SortsAs clauses e x

theorem SortsAs.unique {e : Offer} {x y : SortedHit} (hx : SortsAs clauses e x)
    (hy : SortsAs clauses e y) : x = y := by
  cases x
  cases y
  exact congrArg₂ SortedHit.mk (hx.1.trans hy.1.symm)
    (Except.ok.inj ((sortKeys_eq_ok.mpr hx.2).symm.trans (sortKeys_eq_ok.mpr hy.2)))

theorem exists_sortsAs {hits : List SortedHit} (h : List.Forall₂ (SortsAs clauses) done hits)
    (hsub : done ⊆ items) : ∀ x ∈ hits, ∃ e ∈ items, SortsAs clauses e x := by
  intro x hx
  obtain ⟨e, he, hsorts⟩ := exists_of_forall₂ h.flip hx
  exact ⟨e, hsub he, hsorts⟩

theorem ListsFirst.not_unread {page : List SortedHit} (h : ListsFirst clauses limit items page) :
    ¬ Unread clauses items := by
  rintro ⟨e, he, hnone⟩
  obtain ⟨hits, hhits, -⟩ := h
  obtain ⟨x, -, hx⟩ := exists_of_forall₂ hhits he
  exact hnone x hx

/-! ### Cuts lose nothing -/

/-- What a group has after some of the matches. -/
structure HasSorted (clauses : List SortClause) (limit : Nat) (items done : List Offer)
    (buffer : List SortedHit) : Prop where
  done_subset : done ⊆ items
  sortsAs : ∀ x ∈ buffer, ∃ e ∈ items, SortsAs clauses e x
  best : ∃ hits, List.Forall₂ (SortsAs clauses) done hits ∧
    FederatedSearch.best (SortedHit.isBefore clauses) limit buffer =
      FederatedSearch.best (SortedHit.isBefore clauses) limit hits

theorem hasSorted_nil : HasSorted clauses limit items [] [] :=
  ⟨List.nil_subset _, nofun, [], .nil, rfl⟩

section Numbered

variable (hnumbered : Numbered items)
include hnumbered

/-- The sort order is a strict total order on what matches of different numbers are sorted as. -/
theorem ordersOn_sortsAs (clauses : List SortClause) :
    OrdersOn (SortedHit.isBefore clauses) fun x => ∃ e ∈ items, SortsAs clauses e x := by
  refine SortedHit.ordersOn_isBefore ?_ ?_
  · rintro x ⟨e, -, -, hkeys⟩
    exact fits_of_isKey hkeys
  · rintro x y ⟨e, he, hx⟩ ⟨e', he', hy⟩ hsame
    obtain rfl : e = e' := hnumbered.eq_of_hit_eq he he' (hx.1.symm.trans (hsame.trans hy.1))
    exact hx.unique hy

/-- The first hits are the best. -/
theorem firstOf_precedes_iff {hits page : List SortedHit}
    (hhits : ∀ x ∈ hits, ∃ e ∈ items, SortsAs clauses e x) :
    FirstOf (SortedHit.Precedes clauses) limit hits page ↔
      page = best (SortedHit.isBefore clauses) limit hits := by
  refine (ordersOn_sortsAs hnumbered clauses).firstOf_iff_eq_best ?_ hhits
  rintro x y ⟨e, -, -, hx⟩ ⟨e', -, -, hy⟩
  rw [SortedHit.isBefore_iff,
    SortedHit.compareSorted_eq_lt_iff (fits_of_isKey hx) (fits_of_isKey hy)]

theorem ListsFirst.unique {page page' : List SortedHit} (h : ListsFirst clauses limit items page)
    (h' : ListsFirst clauses limit items page') : page = page' := by
  obtain ⟨hits, hhits, hpage⟩ := h
  obtain ⟨hits', hhits', hpage'⟩ := h'
  obtain rfl : hits = hits' := List.right_unique_forall₂' (fun _ _ _ hx hy => hx.unique hy) hhits hhits'
  have hall := exists_sortsAs hhits (List.Subset.refl items)
  rw [(firstOf_precedes_iff hnumbered hall).mp hpage, (firstOf_precedes_iff hnumbered hall).mp hpage']

/-- **One more match**, whose keys can be read. -/
theorem HasSorted.collect {buffer : List SortedHit} (h : HasSorted clauses limit items done buffer)
    {e : Offer} (he : e ∈ items) {x : SortedHit} (hx : SortsAs clauses e x) :
    HasSorted clauses limit items (done ++ [e]) (bufferSorted clauses limit buffer x) := by
  have horders := ordersOn_sortsAs hnumbered clauses
  obtain ⟨hits, hhits, hbest⟩ := h.best
  have hall := exists_sortsAs hhits h.done_subset
  refine ⟨List.append_subset.mpr ⟨h.done_subset, List.cons_subset.mpr ⟨he, List.nil_subset _⟩⟩,
    mem_bufferSorted horders h.sortsAs ⟨e, he, hx⟩, hits ++ [x],
    List.rel_append hhits (.cons hx .nil), ?_⟩
  rw [best_bufferSorted horders limit h.sortsAs ⟨e, he, hx⟩, ← horders.best_append limit h.sortsAs,
    hbest, horders.best_append limit hall]

/-- **What groups take in.** It fails if there is a match whose keys cannot be read. -/
theorem takes_firstInOrder (clauses : List SortClause) (limit : Nat) :
    (firstInOrder clauses limit).Takes .any items
      (fun done buffer _ => HasSorted clauses limit items done buffer)
      (fun done page _ => ∃ hits, List.Forall₂ (SortsAs clauses) done hits ∧
        page = best (SortedHit.isBefore clauses) limit hits)
      fun _ => Unread clauses items := by
  refine takes_of_endsOnly hasSorted_nil (fun done e he buffer hbuffer => ?_) fun done buffer hbuffer => ?_
  · rw [collect_firstInOrder]
    have hkeys : Meets (fun keys => SortsAs clauses e ⟨e.hit, keys⟩) (fun _ => Unread clauses items)
        (sortKeys clauses (.of e.1) e.2) := by
      rcases hread : sortKeys clauses (.of e.1) e.2 with failure | keys
      · refine ⟨e, he, ?_⟩
        rintro x ⟨-, hx⟩
        exact ok_ne_error ((sortKeys_eq_ok.mpr hx).symm.trans hread)
      · exact ⟨rfl, sortKeys_eq_ok.mp hread⟩
    exact (endsOnly_ofExcept hkeys).bind fun keys hx => endsOnly_pure (hbuffer.collect hnumbered he hx)
  · obtain ⟨hits, hhits, hbest⟩ := hbuffer.best
    exact ⟨hits, hhits,
      (firstSorted_eq (ordersOn_sortsAs hnumbered clauses) limit hbuffer.sortsAs).trans hbest⟩

/-- **The merge** lists the first of all matches. -/
theorem merge_firstInOrder {groups : List (List Offer)} (hgroups : groups.flatten ⊆ items)
    {partials : List (List SortedHit)}
    (h : List.Forall₂ (fun group page => ∃ hits, List.Forall₂ (SortsAs clauses) group hits ∧
      page = best (SortedHit.isBefore clauses) limit hits) groups partials) :
    ∃ page, (firstInOrder clauses limit).merge () partials = .ok page ∧
      ListsFirst clauses limit groups.flatten page := by
  have horders := ordersOn_sortsAs hnumbered clauses
  obtain ⟨dealt, hdealt, rfl⟩ := exists_map_of_forall₂ h
  have hhits : List.Forall₂ (SortsAs clauses) groups.flatten dealt.flatten := List.rel_flatten hdealt
  have hall := exists_sortsAs hhits hgroups
  have hcut : ∀ x ∈ (dealt.map (best (SortedHit.isBefore clauses) limit)).flatten,
      ∃ e ∈ items, SortsAs clauses e x := by
    intro x hx
    obtain ⟨page, hpage, hx⟩ := List.mem_flatten.mp hx
    obtain ⟨hits, hmem, rfl⟩ := List.mem_map.mp hpage
    exact hall x (List.mem_flatten.mpr ⟨hits, hmem, mem_of_mem_best _ hx⟩)
  exact ⟨_, rfl, dealt.flatten, hhits, (firstOf_precedes_iff hnumbered hall).mpr
    ((firstSorted_eq horders limit hcut).trans (horders.best_flatten limit hall))⟩

/-! ### Searches and arrivals -/

/-- Something that lists the first matches if it can. -/
theorem eq_ok_iff_listsFirst {r : Except Failure (List SortedHit)}
    (h : Meets (ListsFirst clauses limit items) (fun _ => Unread clauses items) r)
    {page : List SortedHit} :
    r = .ok page ↔ ListsFirst clauses limit items page :=
  h.eq_ok_iff (fun _ _ hx hy => hx.unique hnumbered hy) fun _ hx _ => hx.not_unread

end Numbered

theorem deliver_firstInOrder {count : Nat} {arrivals : List (Nat × Offer)}
    (hcount : ∀ arrival ∈ arrivals, arrival.1 < count) (hnumbered : Numbered (arrivals.map (·.2)))
    {page : List SortedHit} :
    (((firstInOrder clauses limit).deliver count arrivals).result ()).1 = .ok page ↔
      ListsFirst clauses limit (arrivals.map (·.2)) page := by
  refine eq_ok_iff_listsFirst hnumbered ((takes_firstInOrder hnumbered clauses limit).deliver hcount
    (fun _ hmem => List.mem_map_of_mem hmem) (fun _ h => h) fun _ partials _ hall => ?_)
  have hperm := flatten_arrivedAt_perm hcount
  obtain ⟨page, hpage, hlists⟩ := merge_firstInOrder hnumbered hperm.subset hall
  rw [hpage]
  exact hlists.perm hperm

section Comes

variable [PatternEngines] (clauses) (core : String) (groups : List (List Placed)) (query : Query)
  (hnumbered : Numbered (offers query groups.flatten))
include hnumbered

/-- **A search for the first in order** fails only if a segment cannot be searched, or if the keys of a
match cannot be read. -/
theorem comes_firstInOrder (hlimit : limit ≠ 0) :
    (firstInOrder clauses limit).Comes core groups query
      (fun page => CanSearch query groups.flatten ∧
        ListsFirst clauses limit (offers query groups.flatten) page)
      fun _ => Unread clauses (offers query groups.flatten) ∨ ¬ CanSearch query groups.flatten := by
  have hplain := plain_firstInOrder clauses limit
  rw [if_neg hlimit] at hplain
  refine (takes_firstInOrder hnumbered clauses limit).comes hplain (List.Subset.refl _) (fun _ h => h)
    (fun _ _ partials _ hall => ?_) trivial core
  rw [← offers_flatten] at hnumbered
  obtain ⟨page, hpage, hlists⟩ := merge_firstInOrder hnumbered (List.Subset.refl _) hall
  rw [hpage]
  rwa [offers_flatten] at hlists

omit hnumbered in
/-- A search for no hits reads no keys. -/
theorem comes_firstInOrder_zero
    (hindexed : ∀ placed ∈ groups.flatten, ∃ segment, placed.segment = .indexed segment) :
    (firstInOrder clauses 0).Comes core groups query (· = []) fun _ => False := by
  have hnone : Numbered [] := nofun
  refine (takes_firstInOrder hnone clauses 0).comes_skip (plain_firstInOrder clauses 0)
    (fun placed hmem => readColumns_indexed (hindexed placed hmem) _)
    (fun _ ⟨e, he, _⟩ => absurd he List.not_mem_nil) (fun _ partials _ hall => ?_) trivial core
  exact (rfl : firstSorted clauses 0 partials.flatten = [])

end Comes

section Searches

variable [PatternEngines] (clauses) (query : Query) {limit : Nat} {catalog : Catalog} {core : String}
  {segments : List Segment} {groups : List (List Placed)} {columns : KeyColumns}
  (hlists : ∀ placed ∈ (Snapshot.ofSegments core segments).segments, catalog.Lists placed.segment)
  (hgroups : groups.flatten.Perm (Snapshot.ofSegments core segments).segments)
  (hsound : columns.Sound catalog) (w : Workshop) (schedule : Schedule)
include hlists hgroups hsound

/-- A search for no hits finds none. -/
theorem searchGroups_firstInOrder_zero
    (hcan : CanSearch query (Snapshot.ofSegments core segments).segments) (page : List SortedHit) :
    (((firstInOrder clauses 0).searchGroups w schedule core groups query).result (columns, ())).1 =
      .ok page ↔ page = [] := by
  have hends := (comes_firstInOrder_zero clauses core groups query
    (hcan.perm hgroups.symm).indexed).searchGroups (modest_firstInOrder clauses 0) w
      (forall_group_of_perm hlists hgroups) hsound schedule
  exact hends.eq_ok_iff (fun _ _ hx hy => hx.trans hy.symm) fun _ _ _ => id

/-- A search for hits lists the first matches. -/
theorem searchGroups_firstInOrder (hlimit : limit ≠ 0) (page : List SortedHit) :
    let result := (((firstInOrder clauses limit).searchGroups w schedule core groups query).result
      (columns, ())).1
    (CanSearch query (Snapshot.ofSegments core segments).segments →
      (result = .ok page ↔
        ListsFirst clauses limit (offers query (Snapshot.ofSegments core segments).segments) page)) ∧
      (result = .ok page → CanSearch query (Snapshot.ofSegments core segments).segments) := by
  intro result
  have hoffers := offers_perm query hgroups
  have hnumbered := numbered_offers query core segments
  have hends := (comes_firstInOrder clauses core groups query (hnumbered.perm hoffers.symm)
    hlimit).searchGroups (modest_firstInOrder clauses limit) w (forall_group_of_perm hlists hgroups) hsound
      schedule
  refine ⟨fun hcan => eq_ok_iff_listsFirst hnumbered ?_, fun hpage => (hends.of_ok hpage).1.perm hgroups⟩
  refine hends.mono (fun _ hpage => hpage.2.perm hoffers) fun _ hbad => ?_
  obtain ⟨e, he, hnone⟩ := hbad.resolve_right (not_not_intro (hcan.perm hgroups.symm))
  exact ⟨e, hoffers.mem_iff.mp he, hnone⟩

end Searches

/-- **The first hits in a sort order.** The order of sorted hits is a strict total order, in which the
first clause that tells keys apart decides and relevance decides if there is none, and a missing text goes
to the side that the clause says, among hits that are tied before, whatever the order of the clause is.

Groups that take in matches of different numbers, in whatever order these arrive and wherever each of them
does, come to the first hits in this order, if the keys of all matches can be read, and otherwise to a
failure. So does a search of a snapshot, spread over groups in whatever way and with the groups on whatever
schedule, if the segments can be searched; only a search for no hits reads no keys. -/
theorem firstInOrder_listsFirst [PatternEngines] (clauses : List SortClause) (limit : Nat) :
    (∀ x y : SortedHit, Fits clauses x.keys → Fits clauses y.keys →
      (compareSorted clauses x y = .lt ↔ x.Precedes clauses y)) ∧
    IsStrictTotalOrder { x : SortedHit // Fits clauses x.keys }
      (fun x y => x.1.Precedes clauses y.1) ∧
    (∀ e x, SortsAs clauses e x → Fits clauses x.keys) ∧
    (∀ earlier c later, clauses = earlier ++ c :: later → ∀ (shared as bs : List SortKey) (text : String)
      (x y : SortedHit), shared.length = earlier.length → x.keys = shared ++ .text none :: as →
        y.keys = shared ++ .text (some text) :: bs →
          if c.missing = .textFirst then x.Precedes clauses y else y.Precedes clauses x) ∧
    (∀ (count : Nat) (arrivals : List (Nat × Offer)), (∀ arrival ∈ arrivals, arrival.1 < count) →
      Numbered (arrivals.map (·.2)) → ∀ page,
        (((firstInOrder clauses limit).deliver count arrivals).result ()).1 = .ok page ↔
          ListsFirst clauses limit (arrivals.map (·.2)) page) ∧
    ∀ (catalog : Catalog) (core : String) (segments : List Segment) (query : Query),
      let snapshot := Snapshot.ofSegments core segments
      let searchable := ∀ placed ∈ snapshot.segments, ∃ hits, placed.segment.search query true = .ok hits
      (∀ placed ∈ snapshot.segments, catalog.Lists placed.segment) →
      ∀ (w : Workshop) (groups : List (List Placed)) (schedule : Schedule) (columns : KeyColumns),
        groups.flatten.Perm snapshot.segments → columns.Sound catalog → ∀ page,
            let result := (((firstInOrder clauses limit).searchGroups w schedule core groups query).result
              (columns, ())).1
            (searchable → (result = .ok page ↔ (limit = 0 ∧ page = []) ∨
              ListsFirst clauses limit (offers query snapshot.segments) page)) ∧
            (result = .ok page → limit = 0 ∨ searchable) := by
  refine ⟨fun x y => SortedHit.compareSorted_eq_lt_iff, SortedHit.isStrictTotalOrder_precedes clauses,
    fun e x hx => fits_of_isKey hx.2, ?_, fun count arrivals hcount hnumbered page => ?_, ?_⟩
  · rintro earlier c later rfl shared as bs text x y hshared hx hy
    exact SortedHit.precedes_of_missing hshared hx hy
  · exact deliver_firstInOrder hcount hnumbered
  · intro catalog core segments query snapshot searchable hlists w groups schedule columns hgroups hsound
      page result
    by_cases hlimit : limit = 0
    · subst hlimit
      refine ⟨fun hsearchable => ?_, fun _ => .inl rfl⟩
      rw [searchGroups_firstInOrder_zero clauses query hlists hgroups hsound w schedule hsearchable page]
      exact ⟨fun hpage => .inl ⟨rfl, hpage⟩, fun hpage => hpage.elim And.right ListsFirst.eq_nil⟩
    · obtain ⟨hlisted, hneeds⟩ :=
        searchGroups_firstInOrder clauses query hlists hgroups hsound w schedule hlimit page
      refine ⟨fun hsearchable => (hlisted hsearchable).trans ?_, fun hpage => .inr (hneeds hpage)⟩
      exact ⟨.inr, fun hpage => hpage.resolve_left fun hzero => hlimit hzero.1⟩

/-- Two segments of an archive. The second document has no color, and two are red. -/
def redFolder : IndexedSegment where
  core := "archive"
  identity := ⟨1⟩
  docs := #[{ id := "a1", fields := .ofList [("color", .text "red")] }, { id := "a2" }]

def mixedFolder : IndexedSegment where
  core := "archive"
  identity := ⟨2⟩
  docs := #[{ id := "b1", fields := .ofList [("color", .text "blue")] },
    { id := "b2", fields := .ofList [("color", .text "red")] }]

def folders : List Segment := [.indexed redFolder, .indexed mixedFolder]

/-- What is published under the two identities. -/
def folderCatalog : Catalog := fun id => folders.find? (·.identity = id)

/-- The last color first, and before it whatever has none. -/
def byColor : List SortClause :=
  [{ order := .descending, missing := .textFirst, field := "color", reading := .text }]

/-- The matches arrive backwards, at the second group and the first one by turns. -/
def lastFirst : List (Nat × Offer) :=
  ((offers .all (Snapshot.ofSegments "archive" folders).segments).reverse.zipIdx 1).map fun e =>
    (e.2 % 2, e.1)

theorem lastFirst_perm : (lastFirst.map (·.2)).Perm
    (offers .all (Snapshot.ofSegments "archive" folders).segments) := by
  have hreverse : lastFirst.map (·.2) =
      (offers .all (Snapshot.ofSegments "archive" folders).segments).reverse := by
    rw [lastFirst, List.map_map]
    exact List.zipIdx_map_fst 1 _
  rw [hreverse]
  exact List.reverse_perm _

/-- The document without a color comes first, and the red ones are in the order of their numbers. -/
theorem firstInOrder_listsFirst_folders :
    let snapshot := Snapshot.ofSegments "archive" folders
    let c := firstInOrder byColor 3
    let page : List SortedHit := [⟨⟨1, .one⟩, [.text none]⟩, ⟨⟨0, .one⟩, [.text (some "red")]⟩,
      ⟨⟨3, .one⟩, [.text (some "red")]⟩]
    ((c.deliver 2 lastFirst).result ()).1 = .ok page ∧
      ((c.searchGroups ⟨1, fun _ => true⟩ [⟨0, false⟩, ⟨0, true⟩] "archive" [snapshot.segments.reverse]
        .all).result ({}, ())).1 = .ok page := by
  intro snapshot c page
  have hnumbered := numbered_offers .all "archive" folders
  have hlists : ListsFirst byColor 3 (offers .all snapshot.segments) page := by
    let hits : List SortedHit := [⟨⟨0, .one⟩, [.text (some "red")]⟩, ⟨⟨1, .one⟩, [.text none]⟩,
      ⟨⟨2, .one⟩, [.text (some "blue")]⟩, ⟨⟨3, .one⟩, [.text (some "red")]⟩]
    have hhits : List.Forall₂ (SortsAs byColor) (offers .all snapshot.segments) hits :=
      .cons ⟨rfl, sortKeys_eq_ok.mp rfl⟩ (.cons ⟨rfl, sortKeys_eq_ok.mp rfl⟩
        (.cons ⟨rfl, sortKeys_eq_ok.mp rfl⟩ (.cons ⟨rfl, sortKeys_eq_ok.mp rfl⟩ .nil)))
    refine ⟨hits, hhits, (firstOf_precedes_iff hnumbered
      (exists_sortsAs hhits (List.Subset.refl _))).mpr ?_⟩
    decide +kernel
  have hcatalog : ∀ placed ∈ snapshot.segments, folderCatalog.Lists placed.segment := by
    simp [snapshot, Snapshot.ofSegments, placeFrom, folders, redFolder, mixedFolder, Catalog.Lists,
      folderCatalog, Segment.identity]
  have hsearchable : ∀ placed ∈ snapshot.segments,
      ∃ hits, placed.segment.search .all true = .ok hits := by
    simp only [snapshot, Snapshot.ofSegments, placeFrom, folders, List.forall_mem_cons]
    exact ⟨(IndexedSegment.exists_search_iff true).mpr rfl,
      (IndexedSegment.exists_search_iff true).mpr rfl, fun _ hmem => absurd hmem List.not_mem_nil⟩
  have hcount : ∀ arrival ∈ lastFirst, arrival.1 < 2 := by
    intro arrival hmem
    obtain ⟨e, -, rfl⟩ := List.mem_map.mp hmem
    exact Nat.mod_lt _ (by decide)
  obtain ⟨-, -, -, -, harrivals, hsearches⟩ := firstInOrder_listsFirst byColor 3
  refine ⟨(harrivals 2 lastFirst hcount (hnumbered.perm lastFirst_perm.symm) page).mpr
    (hlists.perm lastFirst_perm.symm), ?_⟩
  refine ((hsearches folderCatalog "archive" folders .all hcatalog _ _ _ {} ?_
    KeyColumns.sound_empty page).1 hsearchable).mpr (.inr hlists)
  rw [List.flatten_singleton]
  exact List.reverse_perm _

end Collector

end FederatedSearch
