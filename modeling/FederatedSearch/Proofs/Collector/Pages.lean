import FederatedSearch.Proofs.Collector.Relevant
import FederatedSearch.Proofs.Collector.Sorted

/-!
# What pages come to

The number of matches, the most relevant hits and the first hits in a sort order are known from the matches
alone, in whatever order these come and however they are grouped. Where scores are blended, the matches are
those with blended scores: what a collector makes of these, it makes of them if it is made to see blended
scores.

## Main definitions

* `blendedOffers` — the matches of segments, with blended scores
* `sortedHit` — a match with its sort keys

## Main results

* `comes_counting` — the number of matches
* `Takes.blended`, `Takes.comes_blended` — what groups take in, with blended scores
* `comes_mostRelevant`, `comes_firstInOrder_blended` — pages
-/

namespace FederatedSearch

namespace Collector

variable {B L P F : Type} {items : List Offer}

/-! ### The number of matches -/

theorem takes_counting (items : List Offer) :
    counting.Takes .any items (fun done count _ => count = done.length)
      (fun done count _ => count = done.length) fun _ => False := by
  refine takes_of_endsOnly rfl (fun done e _ count hcount => ?_) fun _ _ hcount => hcount
  show count + 1 = (done ++ [e]).length
  rw [hcount, List.length_append, List.length_singleton]

theorem merge_counting {groups : List (List Offer)} {counts : List Nat}
    (h : List.Forall₂ (fun group count => count = group.length) groups counts) :
    counting.merge () counts = .ok groups.flatten.length := by
  have hsum : ∀ count, counts.foldl (· + ·) count = count + groups.flatten.length := by
    induction h with
    | nil => exact fun _ => rfl
    | cons hfirst _ ih =>
      intro count
      rw [List.foldl_cons, ih, List.flatten_cons, List.length_append, hfirst, Nat.add_assoc]
  exact congrArg Except.ok ((hsum 0).trans (Nat.zero_add _))

section Groups

variable (core : String) (groups : List (List Placed)) (query : Query)

theorem comes_counting [PatternEngines] : counting.Comes core groups query
    (fun count => CanSearch query groups.flatten ∧ count = (offers query groups.flatten).length)
    fun _ => ¬ CanSearch query groups.flatten := by
  refine ((takes_counting _).comes plain_counting (List.Subset.refl _) (fun _ => id)
    (fun _ _ counts _ hall => ?_) trivial core).mono (fun _ h => h) fun _ h => h.resolve_left id
  rw [merge_counting hall, offers_flatten]
  exact (rfl : (offers query groups.flatten).length = _)

end Groups

/-! ### Blended scores -/

section Blended

variable {ranks : List RankSource} {ratio : Binary32} {inner : Collector B L P F} {R : Regime B}
  {has : List Offer → L → B → Prop} {left : List Offer → P → B → Prop} {bad : Failure → Prop}

variable (ranks ratio) in
/-- The matches of segments, with blended scores. -/
def blendedOffers [PatternEngines] (query : Query) (segments : List Placed) : List Offer :=
  (offers query segments).map (blendOffer ranks ratio)

variable {query : Query} {segments : List Placed}

theorem segment_blendOffer (e : Offer) : (blendOffer ranks ratio e).1 = e.1 := by
  rw [blendOffer]
  split <;> rfl

variable [PatternEngines]

theorem mem_blendedOffers {e : Offer} (h : e ∈ blendedOffers ranks ratio query segments) :
    e.1 ∈ segments := by
  obtain ⟨original, hmem, rfl⟩ := List.mem_map.mp h
  rw [segment_blendOffer]
  exact (mem_offers.mp hmem).1

theorem blendedOffers_flatten (groups : List (List Placed)) :
    (groups.map (blendedOffers ranks ratio query)).flatten =
      blendedOffers ranks ratio query groups.flatten := by
  rw [blendedOffers, ← offers_flatten, List.map_flatten, List.map_map]
  rfl

theorem blendedOffers_perm {others : List Placed} (h : segments.Perm others) :
    (blendedOffers ranks ratio query segments).Perm (blendedOffers ranks ratio query others) :=
  (offers_perm query h).map _

omit [PatternEngines] in
/-- **Groups that see blended scores** take in the matches with blended scores. -/
theorem Takes.blended (h : inner.Takes R items has left bad) {offered : List Offer}
    (hitems : ∀ e ∈ offered, blendOffer ranks ratio e ∈ items) :
    (inner.blended ranks ratio).Takes R offered (fun done => has (done.map (blendOffer ranks ratio)))
      (fun done => left (done.map (blendOffer ranks ratio))) bad where
  has_stable _ := h.has_stable _
  left_stable _ := h.left_stable _
  start := h.start
  collect done e he l s hs hl := by
    rw [collect_blended, List.map_append, List.map_singleton]
    exact h.collect _ _ (hitems e he) l s hs hl
  finish _ := h.finish _

/-- **Searches with blended scores**, on any schedule. -/
theorem Takes.comes_blended {groups : List (List Placed)} {fields : List String}
    (h : inner.Takes R (blendedOffers ranks ratio query groups.flatten) has left bad)
    (hplain : inner.Plain .docs fields) {good : F → Prop} {worse : Failure → Prop}
    (hbad : ∀ failure, bad failure → worse failure)
    (hmerge : ∀ t partials, R.may inner.board t →
      List.Forall₂ (left · · t) (groups.map (blendedOffers ranks ratio query)) partials →
        Meets good worse (inner.merge t partials))
    (hspurious : R.spurious) (core : String) :
    (inner.blended ranks ratio).Comes core groups query (fun x => CanSearch query groups.flatten ∧ good x)
      fun failure => worse failure ∨ ¬ CanSearch query groups.flatten := by
  obtain ⟨more, hblended⟩ := hplain.blended ranks ratio
  refine (h.blended fun e he => List.mem_map_of_mem he).comes hblended (List.Subset.refl _) hbad
    (fun _ t partials ht hall => hmerge t partials ht ?_) hspurious core
  rw [List.forall₂_map_left_iff] at hall ⊢
  exact hall

end Blended

/-! ### Pages -/

section Pages

variable [PatternEngines] (ranks : List RankSource) (ratio : Binary32) (core : String)
  (groups : List (List Placed)) (query : Query)

/-- A page in relevance order. -/
theorem comes_mostRelevant (limit : Nat) :
    ((mostRelevant limit).blended ranks ratio).Comes core groups query
      (fun page => CanSearch query groups.flatten ∧ page = best Hit.isBefore limit
        ((blendedOffers ranks ratio query groups.flatten).map Offer.hit))
      fun _ => ¬ CanSearch query groups.flatten := by
  refine ((takes_mostRelevant limit _).comes_blended (plain_mostRelevant limit) (fun _ => id)
    (fun _ partials _ hall => ?_) trivial core).mono (fun _ h => h) fun _ h => h.resolve_left id
  rw [merge_mostRelevant hall (.refl _), blendedOffers_flatten]
  exact (rfl : best Hit.isBefore limit _ = _)

/-- A page in a sort order. -/
theorem comes_firstInOrder_blended {clauses : List SortClause} {limit : Nat} (hlimit : limit ≠ 0)
    (hnumbered : Numbered (blendedOffers ranks ratio query groups.flatten)) :
    ((firstInOrder clauses limit).blended ranks ratio).Comes core groups query
      (fun page => CanSearch query groups.flatten ∧
        ListsFirst clauses limit (blendedOffers ranks ratio query groups.flatten) page)
      fun _ => Unread clauses (blendedOffers ranks ratio query groups.flatten) ∨
        ¬ CanSearch query groups.flatten := by
  have hplain := plain_firstInOrder clauses limit
  rw [if_neg hlimit] at hplain
  refine (takes_firstInOrder hnumbered clauses limit).comes_blended hplain (fun _ h => h)
    (fun _ partials _ hall => ?_) trivial core
  rw [← blendedOffers_flatten] at hnumbered
  obtain ⟨page, hpage, hlists⟩ := merge_firstInOrder hnumbered (List.Subset.refl _) hall
  rw [hpage]
  rwa [blendedOffers_flatten] at hlists

/-- A page without room reads no keys. -/
theorem comes_firstInOrder_blended_zero (clauses : List SortClause)
    (hindexed : ∀ placed ∈ groups.flatten, ∃ segment, placed.segment = .indexed segment) :
    ((firstInOrder clauses 0).blended ranks ratio).Comes core groups query (· = []) fun _ => False := by
  have hnone : Numbered [] := nofun
  obtain ⟨more, hblended⟩ := (plain_firstInOrder clauses 0).blended ranks ratio
  refine ((takes_firstInOrder hnone clauses 0).blended
    fun e he => absurd he List.not_mem_nil).comes_skip hblended
      (fun placed hmem => readColumns_indexed (hindexed placed hmem) _)
      (fun _ ⟨e, he, _⟩ => absurd he List.not_mem_nil) (fun _ partials _ _ => ?_) trivial core
  exact (rfl : firstSorted clauses 0 partials.flatten = [])

end Pages

/-! ### Matches with their sort keys -/

section SortedHit

variable {clauses : List SortClause}

/-- A match with its sort keys; none if they cannot be read. -/
def sortedHit (clauses : List SortClause) (e : Offer) : SortedHit :=
  ⟨e.hit, (sortKeys clauses (.of e.1) e.2).toOption.getD []⟩

/-- The sort keys of a match can be read, and they are of the right kinds. -/
def Sortable (clauses : List SortClause) (e : Offer) : Prop :=
  ∃ keys, sortKeys clauses (.of e.1) e.2 = .ok keys ∧ Fits clauses keys

theorem SortsAs.eq_sortedHit {e : Offer} {x : SortedHit} (h : SortsAs clauses e x) :
    x = sortedHit clauses e := by
  cases x
  rw [sortedHit, sortKeys_eq_ok.mpr h.2]
  exact congrArg (SortedHit.mk · _) h.1

theorem Sortable.sortsAs {e : Offer} (h : Sortable clauses e) :
    SortsAs clauses e (sortedHit clauses e) := by
  obtain ⟨keys, hkeys, -⟩ := h
  rw [sortedHit, hkeys]
  exact ⟨rfl, sortKeys_eq_ok.mp hkeys⟩

theorem not_unread (h : ∀ e ∈ items, Sortable clauses e) : ¬ Unread clauses items := by
  rintro ⟨e, he, hnone⟩
  exact hnone _ (h e he).sortsAs

/-- The sort order is a strict total order on matches of different numbers. -/
theorem ordersOn_sortedHit (hsortable : ∀ e ∈ items, Sortable clauses e) (hnumbered : Numbered items) :
    OrdersOn (SortedHit.isBefore clauses) fun x => ∃ e ∈ items, sortedHit clauses e = x := by
  refine (ordersOn_sortsAs hnumbered clauses).comap (f := id) ?_ fun _ _ _ _ h => h
  rintro _ ⟨e, he, rfl⟩
  exact ⟨e, he, (hsortable e he).sortsAs⟩

/-- The first hits are the best of the matches with their sort keys. -/
theorem ListsFirst.eq_best {limit : Nat} {page : List SortedHit} (hnumbered : Numbered items)
    (h : ListsFirst clauses limit items page) :
    page = best (SortedHit.isBefore clauses) limit (items.map (sortedHit clauses)) := by
  obtain ⟨hits, hhits, hfirst⟩ := h
  have hsorted : items.map (sortedHit clauses) = hits :=
    map_eq_of_forall₂ (hhits.imp fun _ _ hx => hx.eq_sortedHit.symm)
  rw [hsorted]
  exact (firstOf_precedes_iff hnumbered (exists_sortsAs hhits (List.Subset.refl _))).mp hfirst

/-- Without clauses the sort order is relevance order. -/
theorem map_hit_sortBy_nil (items : List Offer) :
    (sortBy (SortedHit.isBefore []) (items.map (sortedHit []))).map (·.hit) =
      sortBy Hit.isBefore (items.map Offer.hit) := by
  have hmap : sortBy Hit.isBefore ((items.map (sortedHit [])).map (·.hit)) =
      (sortBy (SortedHit.isBefore []) (items.map (sortedHit []))).map (·.hit) :=
    sortBy_map _ _ (fun _ _ => rfl) _
  rw [← hmap, List.map_map]
  rfl

end SortedHit

end Collector

end FederatedSearch
