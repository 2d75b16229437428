import FederatedSearch.Collector.Relevance
import FederatedSearch.Proofs.Hit.TopHits
import FederatedSearch.Proofs.Search.Arrivals

/-!
# The most relevant of the matches that arrive

A `TopHits` has room for some hits, and throughout it has the most relevant of those that were offered
to it, together with a hit to beat once there is no room left. The groups of a search keep one each,
for the matches that happen to arrive there. Merging what the groups have gives the most relevant of
all matches: no match of the page was ever turned away by its group, and neither the order of the
arrivals nor the order in which the groups are merged can be told from the page.

## Main results

* `Collector.merge_mostRelevant` — merging what groups keep
* `Collector.mostRelevant_firstOf` — a `TopHits`, and groups that have one each
-/

namespace FederatedSearch

namespace Collector

variable {limit : Nat}

/-- What a group has after some matches. -/
def HasRelevant (limit : Nat) (done : List Offer) (top : TopHits) : Prop :=
  top.capacity = limit ∧ top.Keeps (done.map Offer.hit)

theorem HasRelevant.collect {done : List Offer} {top : TopHits} (h : HasRelevant limit done top)
    (e : Offer) : HasRelevant limit (done ++ [e]) (top.insert e.hit) := by
  refine ⟨(top.capacity_insert e.hit).trans h.1, ?_⟩
  rw [List.map_append, List.map_singleton]
  exact h.2.insert e.hit

/-- What groups take in. -/
theorem takes_mostRelevant (limit : Nat) (items : List Offer) :
    (mostRelevant limit).Takes .any items (fun done top _ => HasRelevant limit done top)
      (fun done hits _ => hits = best Hit.isBefore limit (done.map Offer.hit)) fun _ => False := by
  refine takes_of_endsOnly (show HasRelevant limit [] _ from ⟨rfl, TopHits.keeps_empty limit⟩)
    (fun _ e _ _ htop => htop.collect e) fun done top htop => ?_
  show top.hits = _
  rw [← htop.1]
  exact htop.2

/-- **Merging** what groups keep, in any order, keeps the best of all they took in. -/
theorem merge_mostRelevant {groups : List (List Offer)} {partials more : List (List Hit)}
    (h : List.Forall₂ (fun group hits => hits = best Hit.isBefore limit (group.map Offer.hit)) groups
      partials) (hmore : more.Perm partials) :
    (mostRelevant limit).merge () more =
      .ok (best Hit.isBefore limit (groups.flatten.map Offer.hit)) := by
  have hpartials : partials = (groups.map (·.map Offer.hit)).map (best Hit.isBefore limit) := by
    rw [List.map_map]
    exact (map_eq_of_forall₂ (h.imp fun _ _ heq => heq.symm)).symm
  refine congrArg Except.ok ?_
  calc ((TopHits.empty limit).insertAll more.flatten).hits
      = best Hit.isBefore limit more.flatten := TopHits.hits_insertAll limit _
    _ = best Hit.isBefore limit partials.flatten :=
      Hit.ordersOn_isBefore.best_perm limit (fun _ _ => trivial) hmore.flatten
    _ = best Hit.isBefore limit (groups.map (·.map Offer.hit)).flatten := by
      rw [hpartials, Hit.ordersOn_isBefore.best_flatten limit fun _ _ => trivial]
    _ = best Hit.isBefore limit (groups.flatten.map Offer.hit) := by rw [List.map_flatten]

/-- **The most relevant hits.** After any offers a `TopHits` has the first of them in relevance order,
as many as it has room for. The flag of one more offer says whether that hit is kept, and the hit to
beat is the worst hit kept, once as many are kept as there is room for. And let groups take in matches
in whatever order these arrive and wherever each of them does: merging what the groups have, in any
order, gives the first of all matches. -/
theorem mostRelevant_firstOf (limit : Nat) :
    (∀ (seen : List Hit) (hit : Hit),
      let t := (TopHits.empty limit).insertAll seen
      FirstOf Hit.Outranks limit seen t.hits ∧
        ((t.offer hit).2 = true ↔ (t.offer hit).1.hits.count hit = t.hits.count hit + 1) ∧
        ((t.offer hit).2 = false → (t.offer hit).1 = t) ∧
        ∀ worst, t.threshold = some worst ↔
          t.size = limit ∧ worst ∈ t.hits ∧ ∀ kept ∈ t.hits, ¬ worst.Outranks kept) ∧
    ∀ (count : Nat) (arrivals : List (Nat × Offer)), (∀ arrival ∈ arrivals, arrival.1 < count) →
      let c := mostRelevant limit
      ∃ partials, (c.takeIn count arrivals).alone.result () = (.ok partials, ()) ∧
        ∀ more, more.Perm partials → ∃ page, c.merge () more = .ok page ∧
          FirstOf Hit.Outranks limit (arrivals.map (·.2.hit)) page := by
  refine ⟨fun seen hit => ?_, fun count arrivals hcount => ?_⟩
  · intro t
    have hkeeps : t.Keeps seen := (TopHits.keeps_empty limit).insertAll seen
    have hcapacity : t.capacity = limit := TopHits.capacity_insertAll _ seen
    refine ⟨?_, t.offer_flag_iff hit, TopHits.eq_of_offer_flag, fun worst => ?_⟩
    · exact Hit.firstOf_outranks_iff.mpr (TopHits.hits_insertAll limit seen)
    · rw [hkeeps.threshold_eq_some_iff, hcapacity]
  · intro c
    obtain ⟨-, hends⟩ := ((takes_mostRelevant limit (arrivals.map (·.2))).ensures_takeIn hcount
      (fun _ hmem => List.mem_map_of_mem hmem) (s := ()) id).ends
    rcases hresult : (c.takeIn count arrivals).alone.result () with ⟨failure | partials, ⟨⟩⟩ <;>
      rw [hresult] at hends
    · exact hends.elim
    · refine ⟨partials, rfl, fun more hmore => ⟨_, merge_mostRelevant hends hmore, ?_⟩⟩
      have hall : (arrivals.map (·.2.hit)) = (arrivals.map (·.2)).map Offer.hit := by
        rw [List.map_map]
        rfl
      rw [Hit.firstOf_outranks_iff, hall]
      exact Hit.ordersOn_isBefore.best_perm limit (fun _ _ => trivial)
        ((flatten_arrivedAt_perm hcount).map Offer.hit)

/-- Three matches of two segments: two that are tied on their score, and one whose score is no number. -/
def tiedArrivals : List (Nat × Offer) :=
  let placed (ord base : Nat) : Placed :=
    ⟨ord, base, .indexed { core := "office", identity := ⟨ord⟩, docs := #[{ id := "p" }, { id := "q" }] }⟩
  [(1, placed 1 2, ⟨1, .one⟩), (0, placed 0 0, ⟨1, .one⟩), (1, placed 1 2, ⟨0, ⟨0x7fc00000⟩⟩)]

/-- Of tied hits the one with the lower number comes first. A score that is no number is above one. -/
theorem mostRelevant_firstOf_tied :
    let t := (TopHits.empty 2).insertAll [⟨5, .one⟩, ⟨3, .one⟩, ⟨4, ⟨0x80000000⟩⟩]
    let c := mostRelevant 2
    t.threshold = some ⟨5, .one⟩ ∧ (t.offer ⟨4, .one⟩).2 = true ∧
      ∃ partials, (c.takeIn 2 tiedArrivals).alone.result () = (.ok partials, ()) ∧
        c.merge () partials.reverse = .ok [⟨2, ⟨0x7fc00000⟩⟩, ⟨1, .one⟩] := by
  intro t c
  obtain ⟨hoffers, harrivals⟩ := mostRelevant_firstOf 2
  obtain ⟨-, hflag, -, hthreshold⟩ := hoffers [⟨5, .one⟩, ⟨3, .one⟩, ⟨4, ⟨0x80000000⟩⟩] ⟨4, .one⟩
  obtain ⟨partials, hpartials, hmerge⟩ := harrivals 2 tiedArrivals (by decide)
  obtain ⟨page, hpage, hfirst⟩ := hmerge _ (List.reverse_perm _)
  refine ⟨(hthreshold _).mpr ⟨by decide, by decide, fun kept hkept => ?_⟩, hflag.mpr (by decide), partials,
    hpartials, ?_⟩
  · rw [← Hit.isBefore_iff_outranks]
    revert kept
    decide
  · rw [hpage, Hit.firstOf_outranks_iff.mp hfirst]
    decide

end Collector

end FederatedSearch
