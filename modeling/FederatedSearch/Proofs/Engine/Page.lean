import FederatedSearch.Proofs.Collector.Collapsed
import FederatedSearch.Proofs.Collector.Sorted
import FederatedSearch.Proofs.Engine.Answer

/-!
# The page of a response

The page is taken from all matches of the main search, with their blended scores, or from the most
relevant ones of each key if hits are collapsed. They are listed in the order of the sort clauses of
the request, with ties in relevance order, and the page is the window of that list that the request
asks for.

If hits are collapsed then the list is in relevance order whatever the sort clauses are. A request
may then only be sorted by relevance, but nothing keeps it from asking for the least relevant hits
first.

## Main definitions

* `Call.matched` — the matches that the page is taken from
* `Collector.Precedes`, `Call.listing` — the order in which they are listed
* `Offer.IsShownAs` — a match as an entry of the page

## Main results

* `Session.shows_listing` — the page of any response
-/

namespace FederatedSearch

/-! ### Clauses of sort fields -/

/-- The clause compares and reads as the sort field says, in the result core itself unless the sort
field names another core. -/
structure SortClause.IsFor (target : String) (f : SortField) (clause : SortClause) : Prop where
  order : clause.order = f.order
  missing : clause.missing = f.missing
  field : clause.field = f.field
  reading : clause.reading = .ofField f
  own : clause.source = .own ↔ ∀ core ∈ f.core, core = target

/-- By relevance, a match is sorted by its score. -/
theorem SortClause.IsFor.sortKeys_of_score {target : String} {f : SortField} {clause : SortClause}
    (h : clause.IsFor target f) (hscore : f.valueType = .score) (hcore : f.core = none) (e : Offer) :
    sortKeys [clause] (.of e.1) e.2 = .ok [.double e.2.score.toDouble] := by
  have hown : clause.source = .own := h.own.mpr fun core hmem => absurd (hcore.symm.trans hmem) nofun
  have hkey : clause.key (.of e.1) e.1 e.2 = .ok (.double e.2.score.toDouble) := by
    rw [key, hown, h.reading, SortReading.ofField, hscore]
    rfl
  show [clause].mapM (fun c => c.key (.of e.1) e.1 e.2) = _
  rw [List.mapM_cons, hkey]
  rfl

theorem Call.isFor_of_clauseOf [PatternEngines] {c : Call} {f : SortField} {clause : SortClause}
    (h : c.clauseOf f = .ok clause) : clause.IsFor c.target f := by
  have hown : (∀ core ∈ f.core, core = c.target) → SortClause.own? f = .ok clause →
      clause.IsFor c.target f := by
    intro hcore h
    rw [SortClause.own?] at h
    split at h
    · exact absurd h error_ne_ok
    · obtain rfl := Except.ok.inj h
      exact ⟨rfl, rfl, rfl, rfl, fun _ => hcore, fun _ => rfl⟩
  rw [clauseOf] at h
  split at h
  · rename_i other hother
    split at h
    · rename_i heq
      exact hown (fun core hcore => (Option.some.inj (hother.symm.trans hcore)).symm.trans heq) h
    · rename_i hne
      obtain ⟨ownField, -, h⟩ := bind_eq_ok.mp h
      obtain ⟨table, -, h⟩ := bind_eq_ok.mp h
      obtain ⟨keyField, -, h⟩ := bind_eq_ok.mp h
      obtain ⟨snapshot, -, h⟩ := bind_eq_ok.mp h
      rw [SortClause.related?] at h
      split at h
      · exact absurd h error_ne_ok
      · obtain rfl := Except.ok.inj h
        refine ⟨rfl, rfl, rfl, rfl, fun hown => ?_, fun hcore => absurd (hcore other hother) hne⟩
        cases hown
  · rename_i hnone
    exact hown (fun core hcore => absurd (hcore.symm.trans hnone) (Option.some_ne_none core)) h

/-! ### Listing matches -/

namespace Collector

variable {clauses : List SortClause} {items : List Offer}

/-- Both matches have sort keys, and by these the first one comes before the second one. Matches
whose keys are all tied are in relevance order. -/
def Precedes (clauses : List SortClause) (e e' : Offer) : Prop :=
  ∃ x x', SortsAs clauses e x ∧ SortsAs clauses e' x' ∧ x.Precedes clauses x'

theorem precedes_of_isBefore {e e' : Offer} (he : Sortable clauses e) (he' : Sortable clauses e')
    (h : (sortedHit clauses e).isBefore clauses (sortedHit clauses e') = true) :
    Precedes clauses e e' := by
  obtain ⟨keys, hkeys, hfits⟩ := he
  obtain ⟨keys', hkeys', hfits'⟩ := he'
  rw [SortedHit.isBefore_iff, sortedHit, sortedHit, hkeys, hkeys'] at h
  exact ⟨⟨e.hit, keys⟩, ⟨e'.hit, keys'⟩, ⟨rfl, sortKeys_eq_ok.mp hkeys⟩,
    ⟨rfl, sortKeys_eq_ok.mp hkeys'⟩, (SortedHit.compareSorted_eq_lt_iff hfits hfits').mp h⟩

/-- Sorted hits are those of the matches, each listed behind all that precede it. -/
theorem exists_listed (hsortable : ∀ e ∈ items, Sortable clauses e) (hnumbered : Numbered items)
    (hnodup : items.Nodup) :
    ∃ listed : List Offer, listed.Perm items ∧ listed.Pairwise (Precedes clauses) ∧
      (sortBy (SortedHit.isBefore clauses) (items.map (sortedHit clauses))).map (·.hit) =
        listed.map Offer.hit := by
  let before : Offer → Offer → Bool := fun e e' =>
    (sortedHit clauses e).isBefore clauses (sortedHit clauses e')
  have horders : OrdersOn before (· ∈ items) :=
    (ordersOn_sortedHit hsortable hnumbered).comap (fun e he => ⟨e, he, rfl⟩)
      fun e e' he he' h => hnumbered.eq_of_hit_eq he he' (congrArg SortedHit.hit h)
  have hperm := sortBy_perm before items
  refine ⟨sortBy before items, hperm, ?_, ?_⟩
  · refine (horders.pairwise_sortBy (fun _ he => he) hnodup).imp_of_mem fun {e e'} he he' h => ?_
    exact precedes_of_isBefore (hsortable e (hperm.mem_iff.mp he))
      (hsortable e' (hperm.mem_iff.mp he')) h
  · rw [sortBy_map before (sortedHit clauses) (fun _ _ => rfl), List.map_map]
    rfl

end Collector

/-- The entry shows the document of the match with its score. -/
def Offer.IsShownAs (e : Offer) (shown : PageHit) : Prop :=
  ∃ doc : Document, e.1.segment.stored e.2.doc = .ok doc ∧ shown = ⟨doc.id, e.2.score⟩

namespace Call

open Collector

variable [PatternEngines] (c : Call) (plan : Plan) (segments : List Placed)

/-- The matches that the page is taken from. -/
def matched : List Offer :=
  match c.request.collapse with
  | some field => kept field (c.found plan segments)
  | none => c.found plan segments

/-- The clauses that the page is sorted by. Collapsed hits are in relevance order. -/
def listing : List SortClause :=
  match c.request.collapse with
  | some _ => []
  | none => plan.clauses

variable {c plan} {catalog : Catalog} (h : c.Grounded catalog) {snapshot : Snapshot}
  (hsnapshot : c.snapshot c.target = .ok snapshot)
include h hsnapshot

theorem Grounded.numbered_found : Numbered (c.found plan snapshot.segments) :=
  Numbered.blend _ _ (h.taken.numbered hsnapshot plan.query)

theorem Grounded.nodup_found : (c.found plan snapshot.segments).Nodup :=
  Numbered.nodup_blend _ _ (h.taken.numbered hsnapshot plan.query) (h.taken.nodup hsnapshot plan.query)

/-- The number of a match leads back to its document. -/
theorem Grounded.stored_found {e : Offer} (he : e ∈ c.found plan snapshot.segments) :
    snapshot.stored e.hit.doc = e.1.segment.stored e.2.doc := by
  obtain ⟨core, segments, rfl⟩ := h.taken c.target snapshot (snapshot_eq_ok hsnapshot)
  obtain ⟨original, hmem, rfl⟩ := List.mem_map.mp he
  rw [Offer.hit_eq, number_blendOffer, segment_blendOffer, doc_blendOffer]
  exact stored_of_mem_offers hmem

/-- **The hits in order** are those of the matches, listed by the sort clauses. Document numbers have
to fit into a packed hit if hits are collapsed. -/
theorem Grounded.exists_listed (hclauses : c.request.sort.mapM c.clauseOf = .ok plan.clauses)
    {ordered : List Hit} (hordered : c.Orders plan snapshot.segments ordered)
    (hdocs : c.request.collapse ≠ none →
      ∀ e ∈ c.found plan snapshot.segments, e.number ≤ maxPackedDoc) :
    ∃ listed : List Offer, listed.Perm (c.matched plan snapshot.segments) ∧
      listed.Pairwise (Precedes (c.listing plan)) ∧ ordered = listed.map Offer.hit := by
  have hnumbered : Numbered (c.found plan snapshot.segments) := h.numbered_found hsnapshot
  have hnodup : (c.found plan snapshot.segments).Nodup := h.nodup_found hsnapshot
  rw [Orders] at hordered
  rcases hcollapse : c.request.collapse with _ | field
  · have hsortable : ∀ e ∈ c.found plan snapshot.segments, Sortable plan.clauses e := fun e he =>
      sortable_of_readable (h.readable hclauses)
        ((h.taken.spreads hsnapshot c.workshop).indexed e.1 (mem_blendedOffers he))
    obtain ⟨listed, hperm, hpairwise, hlisted⟩ := Collector.exists_listed hsortable hnumbered hnodup
    rw [hcollapse] at hordered
    rw [matched, listing, hcollapse]
    exact ⟨listed, hperm, hpairwise, hordered.trans hlisted⟩
  · have hkept : (kept field (c.found plan snapshot.segments)).Sublist
        (c.found plan snapshot.segments) := List.filter_sublist ..
    have hsortable : ∀ e ∈ kept field (c.found plan snapshot.segments), Sortable [] e :=
      fun _ _ => ⟨[], rfl, .nil⟩
    obtain ⟨listed, hperm, hpairwise, hlisted⟩ := Collector.exists_listed hsortable
      (hnumbered.subset hkept.subset) (hnodup.sublist hkept)
    rw [hcollapse] at hordered hdocs
    obtain ⟨b, hcovers, rfl⟩ := hordered
    rw [matched, listing, hcollapse]
    refine ⟨listed, hperm, hpairwise, ?_⟩
    rw [← hlisted, map_hit_sortBy_nil, Hit.ordersOn_isBefore.sortBy_eq_of_perm (fun _ _ => trivial)
      (collapsed_perm hcovers (hdocs (Option.some_ne_none field)) hnumbered hnodup)]

/-- **The page** shows the matches in a window of the list. -/
theorem Grounded.isShownAs_page {listed : List Offer}
    (hlisted : ∀ e ∈ listed, e ∈ c.found plan snapshot.segments) {shown : List PageHit}
    (hpage : c.page ((listed.map Offer.hit).take c.request.stop.toNat) = .ok shown) :
    List.Forall₂ Offer.IsShownAs
      ((listed.take c.request.stop.toNat).drop c.request.start.toNat) shown := by
  rw [page, hsnapshot, ok_bind, ← List.map_take, ← List.map_drop, List.mapM_map, mapM_eq_ok] at hpage
  have hwindow : ∀ e ∈ (listed.take c.request.stop.toNat).drop c.request.start.toNat,
      e ∈ c.found plan snapshot.segments := fun e he =>
    hlisted e (List.mem_of_mem_take (List.mem_of_mem_drop he))
  refine ((List.forall₂_and_left _ _).mpr ⟨hwindow, hpage⟩).imp ?_
  rintro e shown ⟨he, hshown⟩
  obtain ⟨doc, hdoc, hshown⟩ := bind_eq_ok.mp hshown
  rw [h.stored_found hsnapshot he] at hdoc
  exact ⟨doc, hdoc, (Except.ok.inj hshown).symm⟩

end Call

/-! ### At any time of a session -/

namespace Session

section Shows

variable {τ : Type} (s : Session) (r : Request) (schedules : List Schedule) (clock : StateM τ Nat)
  (now : τ)

/-- The number of hits is that of the matches that the page is taken from. All of these are listed,
each behind those that precede it by the clauses that `clausesOf` picks, and the page shows the
window of the list that the request asks for. -/
def Shows [PatternEngines] (clausesOf : Call → Call.Plan → List SortClause) (response : Response) :
    Prop :=
  ∃ (c : Call) (plan : Call.Plan) (snapshot : Snapshot) (listed : List Offer),
    s.engine.call s.isHeld r = .ok c ∧
    ((CallM.toAct (c.planPhase clock)).result (s.beginning schedules now)).1 = .ok plan ∧
    c.snapshot r.resultsFrom = .ok snapshot ∧
    List.Forall₂ (fun f clause => clause.IsFor r.resultsFrom f) r.sort plan.clauses ∧
    listed.Perm (c.matched plan snapshot.segments) ∧
    listed.Pairwise (Collector.Precedes (clausesOf c plan)) ∧
    response.totalHits = (c.matched plan snapshot.segments).length ∧
    List.Forall₂ Offer.IsShownAs ((listed.take r.stop.toNat).drop r.start.toNat) response.hits

end Shows

/-- **The page of any response.** Document numbers have 32 bits, which matters where hits are packed
to be collapsed. -/
theorem shows_listing [PatternEngines] (settings : Settings) (history : List Event) (r : Request)
    (schedules : List Schedule) {τ : Type} (clock : StateM τ Nat) (now : τ) {response : Response}
    (h : (run settings history).answer r schedules clock now = .ok response)
    (hdocs : r.collapse ≠ none → ∀ core,
      (run settings history).engine.cores.find? r.resultsFrom = some core →
        (core.segments.map (·.size)).sum ≤ 2 ^ 32) :
    (run settings history).Shows r schedules clock now Call.listing response := by
  obtain ⟨catalog, c, plan, snapshot, main, related, hcall, hgrounded, -, hplan, -, hsnapshot,
    hexplains⟩ := exists_explains h
  obtain ⟨rfl, -, hsnapshots⟩ := Engine.of_call_eq_ok hcall
  have hpacked : c.request.collapse ≠ none →
      ∀ e ∈ c.found plan snapshot.segments, e.number ≤ maxPackedDoc := by
    intro hcollapse e he
    obtain ⟨core, hcore, rfl⟩ := Engine.of_snapshots_eq_ok hsnapshots (Call.snapshot_eq_ok hsnapshot)
    obtain ⟨original, hmem, rfl⟩ := List.mem_map.mp he
    have hlt := number_lt_of_mem_offers hmem
    have hsize := hdocs hcollapse core hcore
    rw [Collector.number_blendOffer, maxPackedDoc]
    omega
  obtain ⟨ordered, hordered, hhits, htotal⟩ := hexplains.describes.page
  obtain ⟨listed, hperm, hpairwise, rfl⟩ :=
    hgrounded.exists_listed hsnapshot hexplains.clauses hordered hpacked
  have hfound : ∀ e ∈ listed, e ∈ c.found plan snapshot.segments := by
    intro e he
    have hmatched := hperm.mem_iff.mp he
    rw [Call.matched] at hmatched
    split at hmatched
    · exact (Collector.mem_kept.mp hmatched).1
    · exact hmatched
  have hclauses := mapM_eq_ok.mp hexplains.clauses
  have hpage := hexplains.page
  rw [hhits] at hpage
  refine ⟨c, plan, snapshot, listed, hcall, hplan, hsnapshot, hclauses.imp fun f clause hclause =>
    Call.isFor_of_clauseOf hclause, hperm, hpairwise, ?_, hgrounded.isShownAs_page hsnapshot hfound hpage⟩
  rw [hexplains.answer, Call.answer, htotal, List.length_map, hperm.length_eq]

/-- A red book and a blue one. -/
def booksHistory : List Event :=
  let book := fun (id : String) (key : Int64) (color : String) =>
    { id, fields := .ofList [("K", .int key), ("color", .text color)] : Document }
  [.createCore "books", .addSegment 0 [book "a1" 1 "red", book "a2" 2 "blue"]]

/-- All books, where red ones score higher, and the least relevant one first, of one key each. -/
def leastRelevantFirst : Request :=
  (((Request.ofCore "books").query "books" (.bool [.all] [.term "color" "red"] [] [])).sortBy
    { valueType := .score, order := .ascending }).collapsing "K"

theorem hits_leastRelevantFirst :
    ∃ response, (run (.standard 1) booksHistory).answer leastRelevantFirst [] (pure 0 : StateM Unit Nat) ()
      = .ok response ∧ response.hits = [⟨"a1", ⟨0x40000000⟩⟩, ⟨"a2", .one⟩] := by
  have hrun : ((run (.standard 1) booksHistory).answer leastRelevantFirst []
      (pure 0 : StateM Unit Nat) ()).toOption.map (·.hits) =
        some [⟨"a1", ⟨0x40000000⟩⟩, ⟨"a2", .one⟩] := by
    decide +kernel
  rcases hanswer : (run (.standard 1) booksHistory).answer leastRelevantFirst []
      (pure 0 : StateM Unit Nat) () with failure | response
  · rw [hanswer] at hrun
    exact nomatch hrun
  · rw [hanswer] at hrun
    exact ⟨response, rfl, Option.some.inj hrun⟩

theorem shows_listing_books :
    let session := run (.standard 1) booksHistory
    ∃ response, session.answer leastRelevantFirst [] (pure 0 : StateM Unit Nat) () = .ok response ∧
      (∀ core, session.engine.cores.find? leastRelevantFirst.resultsFrom = some core →
        (core.segments.map (·.size)).sum ≤ 2 ^ 32) ∧
      session.Shows leastRelevantFirst [] (pure 0 : StateM Unit Nat) () Call.listing response := by
  intro session
  obtain ⟨response, hresponse, -⟩ := hits_leastRelevantFirst
  have hsmall : (session.engine.cores.find? leastRelevantFirst.resultsFrom).all
      (fun core => (core.segments.map (·.size)).sum ≤ 2 ^ 32) = true := by
    decide +kernel
  have hdocs : ∀ core, session.engine.cores.find? leastRelevantFirst.resultsFrom = some core →
      (core.segments.map (·.size)).sum ≤ 2 ^ 32 := by
    intro core hcore
    rw [hcore] at hsmall
    exact of_decide_eq_true hsmall
  exact ⟨response, hresponse, hdocs, shows_listing _ _ _ _ _ _ hresponse fun _ => hdocs⟩

/-- **Collapsed hits are not always sorted as the request says**: here the least relevant one should
come first. -/
theorem not_shows_clauses :
    ¬ ∀ (settings : Settings) (history : List Event) (r : Request) (response : Response),
      (run settings history).answer r [] (pure 0 : StateM Unit Nat) () = .ok response →
        (run settings history).Shows r [] (pure 0 : StateM Unit Nat) () (fun _ plan => plan.clauses)
          response := by
  intro hlaw
  obtain ⟨response, hresponse, hhits⟩ := hits_leastRelevantFirst
  obtain ⟨c, plan, snapshot, listed, -, -, -, hclauses, -, hpairwise, -, hshown⟩ :=
    hlaw _ _ _ _ hresponse
  obtain ⟨clause, rest, hfor, hrest, hcons⟩ := List.forall₂_cons_left_iff.mp hclauses
  obtain rfl := List.forall₂_nil_left_iff.mp hrest
  -- the page shows the list from its start, and there are two books on it
  rw [hhits] at hshown
  obtain ⟨e, others, ⟨_, -, hfirst⟩, hothers, hwindow⟩ := List.forall₂_cons_right_iff.mp hshown
  obtain ⟨e', none, ⟨_, -, hsecond⟩, -, rfl⟩ := List.forall₂_cons_right_iff.mp hothers
  have hlisted : (e :: e' :: none).Sublist listed :=
    hwindow ▸ (List.drop_sublist _ _).trans (List.take_sublist _ _)
  obtain ⟨⟨_, keys⟩, ⟨_, keys'⟩, ⟨-, hkeys⟩, ⟨-, hkeys'⟩, hprecedes⟩ :
      Collector.Precedes plan.clauses e e' :=
    (List.pairwise_cons.mp (hpairwise.sublist hlisted)).1 e' List.mem_cons_self
  have hlt := (SortedHit.compareSorted_eq_lt_iff (fits_of_isKey hkeys)
    (fits_of_isKey hkeys')).mpr hprecedes
  have hkeys := sortKeys_eq_ok.mpr hkeys
  have hkeys' := sortKeys_eq_ok.mpr hkeys'
  have hred : e.2.score = ⟨0x40000000⟩ := (congrArg PageHit.score hfirst).symm
  have hblue : e'.2.score = .one := (congrArg PageHit.score hsecond).symm
  rw [hcons, hfor.sortKeys_of_score rfl rfl, hred] at hkeys
  rw [hcons, hfor.sortKeys_of_score rfl rfl, hblue] at hkeys'
  obtain rfl := Except.ok.inj hkeys
  obtain rfl := Except.ok.inj hkeys'
  have hgreater : SortKey.compareUnder .ascending .textLast
      (.double (Binary32.toDouble ⟨0x40000000⟩)) (.double (Binary32.toDouble .one)) = .gt := by
    decide +kernel
  rw [hcons, compareSorted, compareKeys, SortClause.compare, hfor.order, hfor.missing, hgreater] at hlt
  cases hlt

end Session

end FederatedSearch
