import FederatedSearch.Proofs.Collector.Collapsed
import FederatedSearch.Proofs.Search.Alone
import FederatedSearch.Proofs.Search.Documents

/-!
# Searches that collapse

Matches with a key go to the records, which all groups share, and matches without a key to the best hits
that each group has for itself. The two meet when the results of the groups are merged. None of this shows
in what comes out: it is known from the documents, so it is the same for all groups that the segments can
be spread over, for all schedules of the groups, and for all orders in which matches can arrive at them.

Groups that contend for a record may use up the budget of an exchange, and then the search fails. This takes
more documents of one key than the budget allows exchanges, and more than one group. So a group on its own
succeeds if a single exchange may be tried.

## Main definitions

* `leftByKey` — the entries that collapsing leaves
* `collapsed` — what collapsing comes to

## Main results

* `meets_collapsing` — a search on any schedule
* `searches_collapsing` — searches and arrivals come to what collapsing the documents does
* `search_rivals` — a search that fails as groups contend
-/

namespace FederatedSearch

namespace Collector

variable {catalog : Catalog} {query : Query} {field : String} {limit budget : Nat}

/-! ### Collapsing entries -/

/-- The entries without a key, and the most relevant entry of each key. -/
def leftByKey (entries : List (JoinKey × Hit)) : List (JoinKey × Hit) :=
  entries.filter fun x =>
    x.1 = noKey ∨ ∀ y ∈ entries, y.1 = x.1 → y.2.isBefore x.2 = false

/-- The best of the hits that are left, with the number of keys and of entries without a key. -/
def collapsed (limit : Nat) (entries : List (JoinKey × Hit)) : Collapsed where
  hits := best Hit.isBefore limit ((leftByKey entries).map (·.2))
  groups := ((entries.map (·.1)).filter (· ≠ noKey)).dedup.length +
    ((entries.map (·.1)).filter (· = noKey)).length

theorem leftByKey_map_entry (items : List Offer) :
    leftByKey (items.map (Offer.entry field)) = (kept field items).map (Offer.entry field) := by
  rw [leftByKey, List.filter_map, kept]
  refine congrArg _ (List.filter_congr fun e _ => decide_eq_decide.mpr (or_congr_right ?_))
  rw [List.forall_mem_map]
  rfl

/-- The hits and the number of groups, by what is on record. -/
theorem collapsed_eq {items : List Offer} {b : BestPerKey} (hcovers : b.Covers (keyed field items))
    (hdocs : ∀ e ∈ items, e.number ≤ maxPackedDoc) (hnumbered : Numbered items) (hnodup : items.Nodup) :
    collapsed limit (items.map (Offer.entry field)) =
      ⟨best Hit.isBefore limit (unkeyed field items ++ b.hits),
        b.size + (unkeyed field items).length⟩ := by
  have hhits : ((leftByKey (items.map (Offer.entry field))).map (·.2)) =
      (kept field items).map Offer.hit := by
    rw [leftByKey_map_entry, List.map_map]
    rfl
  have hkeys : ((items.map (Offer.entry field)).map (·.1)).filter (· ≠ noKey) =
      (keyed field items).map (·.1) := by
    rw [List.map_map, List.filter_map, keyed, List.map_map]
    rfl
  have hunkeyed : (((items.map (Offer.entry field)).map (·.1)).filter (· = noKey)).length =
      (unkeyed field items).length := by
    rw [List.map_map, List.filter_map, unkeyed, List.length_map, List.length_map]
    rfl
  rw [collapsed, hhits, hkeys, hunkeyed, hcovers.size_eq,
    Hit.ordersOn_isBefore.best_perm limit (fun _ _ => trivial)
      (collapsed_perm hcovers hdocs hnumbered hnodup)]

/-! ### A group on its own -/

/-- Where an exchange may be tried, an offer that nobody interferes with succeeds. -/
theorem ends_contend_alone {b : BestPerKey} (hbudget : 1 ≤ b.budget) (key : JoinKey) (hit : Hit) :
    (BestPerKey.contend key hit).alone.Ends b (fun _ t => t.budget = b.budget) fun _ => False := by
  have hoffer : (BestPerKey.contend key hit).alone.result b = b.offer key hit := rfl
  by_cases hle : hit.pack.word ≤ (b.held key).word
  · rw [BestPerKey.offer_of_le hle] at hoffer
    exact Act.ends_of_forall (fun _ _ hr => (Prod.mk.inj (hoffer.symm.trans hr)).2 ▸ rfl)
      fun _ _ hr => absurd (Prod.mk.inj (hoffer.symm.trans hr)).1 ok_ne_error
  · rw [BestPerKey.offer_of_lt hle (Nat.ne_of_gt hbudget)] at hoffer
    exact Act.ends_of_forall (fun _ _ hr => (Prod.mk.inj (hoffer.symm.trans hr)).2 ▸ rfl)
      fun _ _ hr => absurd (Prod.mk.inj (hoffer.symm.trans hr)).1 ok_ne_error

theorem steady_collapsing (field : String) (limit : Nat) (hbudget : 1 ≤ budget) :
    (collapsing field limit budget).Steady fun b => b.budget = budget where
  board := rfl
  start _ hb := Act.ends_pure hb
  collect bound hit l b hb := by
    show Act.Ends (Process.alone (if bound.key field hit.doc = noKey then _ else _)) b _ _
    split
    · exact Act.ends_pure hb
    · rw [Process.alone_bind]
      exact (ends_contend_alone (hb ▸ hbudget) _ _).bind fun _ t ht => Act.ends_pure (ht.trans hb)
  finish _ _ hb := Act.ends_pure hb
  merge _ _ := ⟨_, rfl⟩

/-! ### Searches and arrivals -/

/-- Some key is that of more entries than an update may try exchanges. -/
def Contested (budget : Nat) (entries : List (JoinKey × Hit)) : Prop :=
  ∃ key, key ≠ noKey ∧ budget < (entries.filter (·.1 = key)).length

instance (budget : Nat) (entries : List (JoinKey × Hit)) : Decidable (Contested budget entries) :=
  decidable_of_iff (∃ key ∈ entries.map (·.1), key ≠ noKey ∧ budget < (entries.filter (·.1 = key)).length)
    ⟨fun ⟨key, _, h⟩ => ⟨key, h⟩, fun ⟨key, hne, h⟩ => ⟨key, by
      obtain ⟨x, hx⟩ := List.exists_mem_of_length_pos (Nat.zero_lt_of_lt h)
      obtain ⟨hmem, hkey⟩ := List.mem_filter.mp hx
      exact List.mem_map.mpr ⟨x, hmem, of_decide_eq_true hkey⟩, hne, h⟩⟩

theorem contested_of_crowded {items : List Offer} (h : BestPerKey.Crowded (keyed field items) budget) :
    Contested budget (items.map (Offer.entry field)) := by
  obtain ⟨key, hlt⟩ := h
  rw [BestPerKey.hitsOf, List.length_map, keyed, List.filter_map, List.length_map, List.filter_filter] at hlt
  obtain ⟨e, he⟩ := List.exists_mem_of_length_pos (Nat.zero_lt_of_lt hlt)
  have hboth := (List.mem_filter.mp he).2
  simp only [Function.comp_apply, Bool.and_eq_true, decide_eq_true_eq] at hboth
  refine ⟨key, hboth.1 ▸ hboth.2, Nat.lt_of_lt_of_le hlt ?_⟩
  rw [List.filter_map, List.length_map]
  refine List.Sublist.length_le (List.monotone_filter_right items fun e he => ?_)
  simp only [Function.comp_apply, Bool.and_eq_true, decide_eq_true_eq] at he ⊢
  exact he.1

/-- Whether some exchange fails without a reason. -/
abbrev Spurious (schedule : Schedule) : Prop := ∃ turn ∈ schedule, turn.spurious = true

section OfSegments

variable [PatternEngines] {core : String} {segments : List Segment}
  (hsize : (segments.map (·.size)).sum ≤ 2 ^ 32)
include hsize

/-- **The merge.** However the matches of a snapshot were dealt out to groups, what these have taken in is
merged into what collapsing leaves. -/
theorem merge_offers (hcan : CanSearch query (Snapshot.ofSegments core segments).segments)
    {groups : List (List Offer)}
    (hgroups : groups.flatten.Perm (offers query (Snapshot.ofSegments core segments).segments))
    {spurious : Prop} {b : BestPerKey}
    (hb : (BestPerKey.sharing (keyed field (offers query (Snapshot.ofSegments core segments).segments))
      spurious).may (.empty budget) b) {partials : List Unkeyed}
    (h : List.Forall₂ (HasCollapsed field limit · · b) groups partials) :
    (collapsing field limit budget).merge b partials = .ok (collapsed limit
      ((documentsOf query (Snapshot.ofSegments core segments).segments).map (entryOf query field))) := by
  obtain ⟨b', hcovers, hmerge⟩ := merge_takes_collapsing hgroups hb h
  rw [hmerge, ← map_entry_offers hcan, collapsed_eq hcovers (fun e he => ?_)
    (numbered_offers query core segments) (nodup_offers query core segments)]
  have hnumber := number_lt_of_mem_offers he
  rw [maxPackedDoc]
  omega

variable (hlists : ∀ placed ∈ (Snapshot.ofSegments core segments).segments, catalog.Lists placed.segment)
  {groups : List (List Placed)} (hperm : groups.flatten.Perm (Snapshot.ofSegments core segments).segments)
include hlists hperm

/-- **A search on any schedule** comes to what collapsing the documents does, or it fails: because some
segment cannot be searched, or because exchanges are refused too often. -/
theorem meets_collapsing (w : Workshop) (schedule : Schedule) {columns : KeyColumns}
    (hcolumns : columns.Sound catalog) :
    Meets (fun r => CanSearch query (Snapshot.ofSegments core segments).segments ∧ r = collapsed limit
        ((documentsOf query (Snapshot.ofSegments core segments).segments).map (entryOf query field)))
      (fun failure => ¬ CanSearch query (Snapshot.ofSegments core segments).segments ∨
        failure = .retryBudgetExceeded budget ∧ (Spurious schedule ∨ Contested budget
          ((documentsOf query (Snapshot.ofSegments core segments).segments).map (entryOf query field))))
      (((collapsing field limit budget).searchGroups w schedule core groups query).result
        (columns, .empty budget)).1 := by
  have hoffers : (offers query groups.flatten).Perm
      (offers query (Snapshot.ofSegments core segments).segments) := offers_perm query hperm
  have hcan : CanSearch query groups.flatten ↔ CanSearch query (Snapshot.ofSegments core segments).segments :=
    ⟨fun h => h.perm hperm, fun h => h.perm hperm.symm⟩
  refine ((takes_collapsing field limit budget (offers query (Snapshot.ofSegments core segments).segments)
    (Spurious schedule)).searchGroups (plain_collapsing field limit budget) hoffers.subset
    (fun _ h => h) (fun hsearch t partials ht hall => ?_) (modest_collapsing field limit budget) w
    (fun placed hmem => hlists placed (hperm.mem_iff.mp hmem)) hcolumns
    (fun turn hmem hspurious => ⟨turn, hmem, hspurious⟩) core).mono
    (fun r hr => ⟨hcan.mp hr.1, hr.2⟩) fun failure hfails => ?_
  · rw [merge_offers hsize (hcan.mp hsearch) (by rwa [offers_flatten]) ht hall]
    rfl
  · by_cases hsearch : CanSearch query (Snapshot.ofSegments core segments).segments
    · obtain ⟨hbudget, hreason⟩ := hfails.resolve_right (not_not.mpr (hcan.mpr hsearch))
      exact .inr ⟨hbudget, hreason.imp_right fun h => map_entry_offers hsearch field ▸ contested_of_crowded h⟩
    · exact .inl hsearch

variable (hbudget : 1 ≤ budget)
include hbudget

/-- **A search that succeeds whenever it can**: no key has too many documents, or there is just one group. -/
theorem eq_ok_iff_collapsing (w : Workshop) {schedule : Schedule} (hschedule : ¬ Spurious schedule)
    (hquiet : groups.length ≤ 1 ∨ ¬ Contested budget
      ((documentsOf query (Snapshot.ofSegments core segments).segments).map (entryOf query field)))
    {columns : KeyColumns} (hcolumns : columns.Sound catalog) (r : Collapsed) :
    (((collapsing field limit budget).searchGroups w schedule core groups query).result
        (columns, .empty budget)).1 = .ok r ↔
      CanSearch query (Snapshot.ofSegments core segments).segments ∧ r = collapsed limit
        ((documentsOf query (Snapshot.ofSegments core segments).segments).map (entryOf query field)) := by
  have hmeets : Meets _ _ (((collapsing field limit budget).searchGroups w schedule core groups query).result
      (columns, .empty budget)).1 := meets_collapsing hsize hlists hperm w schedule hcolumns
  refine ⟨hmeets.of_ok, fun ⟨hcan, hr⟩ => ?_⟩
  suffices hok : ∃ x, (((collapsing field limit budget).searchGroups w schedule core groups query).result
      (columns, .empty budget)).1 = .ok x by
    obtain ⟨x, hx⟩ := hok
    rw [hx, hr, (hmeets.of_ok hx).2]
  rcases hquiet with hsingle | hquiet
  · exact (steady_collapsing field limit hbudget).exists_searchGroups (plain_collapsing field limit budget)
      (modest_collapsing field limit budget) w (fun placed hmem => hlists placed (hperm.mem_iff.mp hmem))
      hcolumns (fun turn hmem => Bool.eq_false_iff.mpr fun h => hschedule ⟨turn, hmem, h⟩) hsingle
      (hcan.perm hperm.symm) core
  · rcases hr' : (((collapsing field limit budget).searchGroups w schedule core groups query).result
      (columns, .empty budget)).1 with failure | x
    · obtain ⟨-, hreason⟩ := (hmeets.of_error hr').resolve_left (not_not.mpr hcan)
      exact absurd hreason (not_or.mpr ⟨hschedule, hquiet⟩)
    · exact ⟨x, rfl⟩

omit hlists hperm in
/-- **Matches that arrive in any order.** -/
theorem deliver_collapsing (hcan : CanSearch query (Snapshot.ofSegments core segments).segments)
    {count : Nat} {arrivals : List (Nat × Offer)} (hcount : ∀ arrival ∈ arrivals, arrival.1 < count)
    (harrivals : (arrivals.map (·.2)).Perm (offers query (Snapshot.ofSegments core segments).segments)) :
    (((collapsing field limit budget).deliver count arrivals).result (.empty budget)).1 =
      .ok (collapsed limit
        ((documentsOf query (Snapshot.ofSegments core segments).segments).map (entryOf query field))) := by
  have hmeets := (takes_collapsing field limit budget
    (offers query (Snapshot.ofSegments core segments).segments) False).deliver hcount
    (fun arrival hmem => harrivals.subset (List.mem_map_of_mem hmem)) (fun _ h => h)
    fun t partials ht hall => (merge_offers hsize hcan ((flatten_arrivedAt_perm hcount).trans harrivals) ht
      hall).symm ▸ (show Meets (· = _) _ (.ok _) from rfl)
  obtain ⟨x, hx⟩ := (steady_collapsing field limit hbudget).exists_deliver count arrivals
  exact hx.trans (congrArg Except.ok (hmeets.of_ok hx))

end OfSegments

/-- **Searches that collapse.** A search of the segments, spread over groups in whatever way and with the
groups on whatever schedule, can only succeed if every segment can be searched, and only with the matching
live documents collapsed by their keys: the best of the documents without a key and of the most relevant one
of each key, and how many keys and documents without a key there are. If every segment can be searched then
it can only fail because an update of a record uses up its budget of exchanges, and not at all if no
exchange fails without a reason and either there is just one group, or no key has more documents than an
update may try exchanges. Groups that take in the matches one at a time, in whatever order these arrive and
wherever each of them does, do not fail either, and come to the same. -/
theorem searches_collapsing [PatternEngines] {core : String} {segments : List Segment} (query : Query)
    (field : String) (limit : Nat) (hbudget : 1 ≤ budget) (hsize : (segments.map (·.size)).sum ≤ 2 ^ 32)
    (hlists : ∀ placed ∈ (Snapshot.ofSegments core segments).segments, catalog.Lists placed.segment) :
    let snapshot := Snapshot.ofSegments core segments
    let c := collapsing field limit budget
    let searchable := CanSearch query snapshot.segments
    let entries := (documentsOf query snapshot.segments).map (entryOf query field)
    let result := collapsed limit entries
    let fails (schedule : Schedule) (failure : Failure) := ¬ searchable ∨
      failure = .retryBudgetExceeded budget ∧ (Spurious schedule ∨ Contested budget entries)
    (∀ (w : Workshop) (groups : List (List Placed)) (schedule : Schedule) (columns : KeyColumns),
      groups.flatten.Perm snapshot.segments → columns.Sound catalog →
        let outcome := ((c.searchGroups w schedule core groups query).result (columns, c.board)).1
        Meets (fun r => searchable ∧ r = result) (fails schedule) outcome ∧
          (¬ Spurious schedule → groups.length ≤ 1 ∨ ¬ Contested budget entries →
            ∀ r, outcome = .ok r ↔ searchable ∧ r = result)) ∧
      (∀ (w : Workshop) (schedule : Schedule) (columns : KeyColumns), columns.Sound catalog →
        let outcome := ((c.searchOn w schedule snapshot query).result (columns, c.board)).1
        Meets (fun r => searchable ∧ r = result) (fails schedule) outcome ∧
          (¬ Spurious schedule → w.concurrency ≤ 1 ∨ ¬ Contested budget entries →
            ∀ r, outcome = .ok r ↔ searchable ∧ r = result)) ∧
      (searchable → ∀ (count : Nat) (arrivals : List (Nat × Offer)),
        (∀ arrival ∈ arrivals, arrival.1 < count) →
          (arrivals.map (·.2)).Perm (offers query snapshot.segments) →
            ((c.deliver count arrivals).result c.board).1 = .ok result) := by
  refine ⟨fun w groups schedule columns hperm hcolumns => ⟨?_, fun hschedule hquiet r => ?_⟩,
    fun w schedule columns hcolumns => ⟨?_, fun hschedule hquiet r => ?_⟩,
    fun hcan count arrivals hcount harrivals => ?_⟩
  · exact meets_collapsing hsize hlists hperm w schedule hcolumns
  · exact eq_ok_iff_collapsing hsize hlists hperm hbudget w hschedule hquiet hcolumns r
  · exact meets_collapsing hsize hlists (flatten_groupsOf_perm w _) w schedule hcolumns
  · refine eq_ok_iff_collapsing hsize hlists (flatten_groupsOf_perm w _) hbudget w hschedule
      (hquiet.imp_left fun hsingle => ?_) hcolumns r
    exact (length_groupsOf_le w _).trans (max_le hsingle (Nat.le_refl 1))
  · exact deliver_collapsing hsize hbudget hcan hcount harrivals

/-- A segment of an office. -/
def binder (identity : Nat) (docs : Array Document) : Segment :=
  .indexed { core := "office", identity := ⟨identity⟩, docs }

/-- The second document has no key. The third one has the key of the first, and is red. -/
def binders : List Segment :=
  [binder 1 #[{ id := "a1", fields := .ofList [("K", .int 7)] }, { id := "a2" }],
    binder 2 #[{ id := "b1", fields := .ofList [("K", .int 7), ("color", .text "red")] },
      { id := "b2", fields := .ofList [("K", .int 8)] }]]

/-- What is published under the two identities. -/
def binderCatalog : Catalog := fun id => binders.find? (·.identity = id)

/-- All documents match, and a red one scores higher. -/
def redFirst : Query := .bool [.all] [.term "color" "red"] [] []

/-- The matches arrive backwards, at the second group and the first one by turns. -/
def backwards : List (Nat × Offer) :=
  ((offers redFirst (Snapshot.ofSegments "office" binders).segments).reverse.zipIdx 1).map fun e =>
    (e.2 % 2, e.1)

theorem backwards_perm : (backwards.map (·.2)).Perm
    (offers redFirst (Snapshot.ofSegments "office" binders).segments) := by
  have hreverse : backwards.map (·.2) =
      (offers redFirst (Snapshot.ofSegments "office" binders).segments).reverse := by
    rw [backwards, List.map_map]
    exact List.zipIdx_map_fst 1 _
  rw [hreverse]
  exact List.reverse_perm _

/-- Two groups take their steps by turns. -/
def byTurns : Schedule := (List.range 12).map fun i => ⟨i % 2, false⟩

/-- There are two keys and a document without one. The two best of what is left are the red document and
the one without a key. -/
theorem searches_collapsing_binders :
    let snapshot := Snapshot.ofSegments "office" binders
    let c := collapsing "K" 2 2
    let result : Collapsed := ⟨[⟨2, .one + .one⟩, ⟨1, .one⟩], 3⟩
    ((c.searchGroups ⟨1, fun _ => true⟩ byTurns "office" [snapshot.segments.reverse]
        redFirst).result ({}, c.board)).1 = .ok result ∧
      ((c.searchOn ⟨2, fun _ => true⟩ byTurns snapshot redFirst).result ({}, c.board)).1 = .ok result ∧
      ((c.deliver 2 backwards).result c.board).1 = .ok result := by
  intro snapshot c result
  have hsize : (binders.map (·.size)).sum ≤ 2 ^ 32 := by decide
  have hlists : ∀ placed ∈ snapshot.segments, binderCatalog.Lists placed.segment := by
    simp [snapshot, Snapshot.ofSegments, placeFrom, binders, binder, Catalog.Lists, binderCatalog,
      Segment.identity]
  have hcan : CanSearch redFirst snapshot.segments := by
    have hcompiles : redFirst.compiles = true := by decide
    simp only [CanSearch, snapshot, Snapshot.ofSegments, placeFrom, binders, binder, List.forall_mem_cons]
    exact ⟨(IndexedSegment.exists_search_iff true).mpr hcompiles,
      (IndexedSegment.exists_search_iff true).mpr hcompiles, fun _ hmem => absurd hmem List.not_mem_nil⟩
  have hresult : result = collapsed 2 ((documentsOf redFirst snapshot.segments).map
      (entryOf redFirst "K")) := by
    decide +kernel
  have hquiet : ¬ Contested 2 ((documentsOf redFirst snapshot.segments).map (entryOf redFirst "K")) := by
    decide +kernel
  have hturns : ¬ Spurious byTurns := by decide
  have hcount : ∀ arrival ∈ backwards, arrival.1 < 2 := by
    intro arrival hmem
    obtain ⟨e, -, rfl⟩ := List.mem_map.mp hmem
    exact Nat.mod_lt _ (by decide)
  obtain ⟨hgroups, hconcurrent, harrivals⟩ :=
    searches_collapsing redFirst "K" 2 (show 1 ≤ 2 by decide) hsize hlists
  refine ⟨?_, ?_, ?_⟩
  · have hperm : [snapshot.segments.reverse].flatten.Perm snapshot.segments := by
      rw [List.flatten_singleton]
      exact List.reverse_perm _
    exact ((hgroups ⟨1, fun _ => true⟩ _ byTurns {} hperm KeyColumns.sound_empty).2 hturns
      (.inl (Nat.le_refl 1)) result).mpr ⟨hcan, hresult⟩
  · exact ((hconcurrent ⟨2, fun _ => true⟩ byTurns {} KeyColumns.sound_empty).2 hturns (.inr hquiet)
      result).mpr ⟨hcan, hresult⟩
  · rw [hresult]
    exact harrivals hcan 2 backwards hcount backwards_perm

/-- Two documents of one key, of which the first one is red. -/
def rivals : List Segment :=
  [binder 1 #[{ id := "a1", fields := .ofList [("K", .int 7), ("color", .text "red")] }],
    binder 2 #[{ id := "b1", fields := .ofList [("K", .int 7)] }]]

/-- The first group has read the record of the key when the second group raises it. -/
def rivalTurns : Schedule := List.replicate 5 ⟨0, false⟩ ++ List.replicate 6 ⟨1, false⟩

theorem search_rivals : (((collapsing "K" 2 1).searchOn ⟨2, fun _ => true⟩ rivalTurns
    (.ofSegments "office" rivals) redFirst).result ({}, .empty 1)).1 =
      .error (.retryBudgetExceeded 1) := by
  decide +kernel

theorem search_uncompiled : (((collapsing "K" 2 1).searchOn ⟨2, fun _ => true⟩ []
    (.ofSegments "office" rivals) (.regex "K" "(")).result ({}, .empty 1)).1.isOk = false := by
  decide +kernel

/-- Groups that contend for a record can use up a budget of one exchange, also when no exchange fails without
a reason. And a search does not succeed if the query cannot be evaluated. -/
theorem not_searches_collapsed :
    (¬ ∀ (segments : List Segment) (query : Query) (field : String) (limit concurrency budget : Nat)
      (schedule : Schedule), 1 ≤ concurrency → 1 ≤ budget → ¬ Spurious schedule →
        (((collapsing field limit budget).searchOn ⟨concurrency, fun _ => true⟩ schedule
          (.ofSegments "office" segments) query).result ({}, .empty budget)).1 =
            .ok (collapsed limit ((documentsOf query (Snapshot.ofSegments "office" segments).segments).map
              (entryOf query field)))) ∧
      (((collapsing "K" 2 1).searchOn ⟨2, fun _ => true⟩ rivalTurns (.ofSegments "office" rivals)
        redFirst).result ({}, .empty 1)).1 = .error (.retryBudgetExceeded 1) ∧
      (((collapsing "K" 2 1).searchOn ⟨2, fun _ => true⟩ [] (.ofSegments "office" rivals)
        (.regex "K" "(")).result ({}, .empty 1)).1.isOk = false := by
  refine ⟨fun h => ?_, search_rivals, search_uncompiled⟩
  have hok := h rivals redFirst "K" 2 2 1 rivalTurns (by decide) (by decide) (by decide)
  exact absurd (search_rivals.symm.trans hok) error_ne_ok

end Collector

end FederatedSearch
