import FederatedSearch.Proofs.Engine.Alike

/-!
# What does not show in a response

A plan holds key sets and tables in some shape, and the keys that a main search hands on come in some
shape, too. All that follows looks at them through lookups alone. So plans that are alike find the
same and list it in the same order, the keys that they hand on are the same keys, and documents of
other cores are related to the same matches.

## Main definitions

* `SortClause.Alike`, `RankSource.Alike`, `Call.Plan.Alike` — the same, as far as lookups tell
* `Call.MainResult.Alike` — the same besides the page
* `CoreQuery.relatedBy` — the documents that facets of another core count
* `Snapshot.entry` — a hit as an entry of the page
* `Response.Alike` — the same besides the page and the times

## Main results

* `Call.Describes.exists_ordered`, `Call.Describes.lookup_alike` — the pages of main searches by plans
  that are alike, and the keys that they hand on
* `Call.Describes.alike` — main searches of a call and a variation of it
* `Call.Grounded.relatedFacetsOf_eq_ok`, `Call.Grounded.agrees_facetsOf` — the facets of other cores
-/

namespace FederatedSearch

/-! ### Equivalent queries -/

namespace Query.Equivalent

variable [PatternEngines] {q r : Query} (h : q.Equivalent r)
include h

theorem compiles_eq : q.compiles = r.compiles := by
  let s : IndexedSegment := { core := "", identity := ⟨0⟩, docs := #[] }
  rw [Bool.eq_iff_iff, ← s.exists_matching_iff q, ← s.exists_matching_iff r, h s]

theorem searchable_iff (segments : List Placed) : Searchable q segments ↔ Searchable r segments := by
  rw [Searchable, Searchable, h.compiles_eq]

theorem offers_eq (segments : List Placed) : offers q segments = offers r segments := by
  simp only [offers, Segment.hits, Segment.search_eq_of_equivalent h]

end Query.Equivalent

/-! ### Clauses and scores -/

/-- The clauses give the same keys and compare them in the same way. -/
structure SortClause.Alike (a b : SortClause) : Prop where
  order : a.order = b.order
  missing : a.missing = b.missing
  key : ∀ bound placed hit, a.key bound placed hit = b.key bound placed hit

theorem SortClause.Alike.refl (a : SortClause) : a.Alike a := ⟨rfl, rfl, fun _ _ _ => rfl⟩

/-- The tables have the same scores for the keys of one field. -/
structure RankSource.Alike (a b : RankSource) : Prop where
  field : a.field = b.field
  score : ∀ key, RankTable.score a.table key = RankTable.score b.table key

theorem RankSource.Alike.refl (a : RankSource) : a.Alike a := ⟨rfl, fun _ => rfl⟩

namespace Collector

section Clauses

variable {clauses clauses' : List SortClause} (h : List.Forall₂ SortClause.Alike clauses clauses')
include h

theorem sortedHit_eq_of_alike (e : Offer) : sortedHit clauses e = sortedHit clauses' e := by
  have hkeys : sortKeys clauses (.of e.1) e.2 = sortKeys clauses' (.of e.1) e.2 := by
    show clauses.mapM (fun c => c.key (.of e.1) e.1 e.2) =
      clauses'.mapM fun c => c.key (.of e.1) e.1 e.2
    induction h with
    | nil => rfl
    | cons hfirst _ ih => rw [List.mapM_cons, List.mapM_cons, hfirst.key, ih]
  rw [sortedHit, sortedHit, hkeys]

theorem isBefore_eq_of_alike : SortedHit.isBefore clauses = SortedHit.isBefore clauses' := by
  have hkeys : ∀ as bs, compareKeys clauses as bs = compareKeys clauses' as bs := by
    induction h with
    | nil => exact fun _ _ => rfl
    | cons hfirst _ ih =>
      intro as bs
      cases as with
      | nil => simp [compareKeys]
      | cons a as =>
        cases bs with
        | nil => simp [compareKeys]
        | cons b bs =>
          simp only [compareKeys, SortClause.compare, hfirst.order, hfirst.missing, ih]
  funext a b
  rw [SortedHit.isBefore, SortedHit.isBefore, compareSorted, compareSorted, hkeys]

end Clauses

theorem blendOffer_eq_of_alike {ranks ranks' : List RankSource}
    (h : List.Forall₂ RankSource.Alike ranks ranks') (ratio : Binary32) (e : Offer) :
    blendOffer ranks ratio e = blendOffer ranks' ratio e := by
  have hscores : (ranks.map fun r => RankTable.score r.table (e.key r.field)) =
      ranks'.map fun r => RankTable.score r.table (e.key r.field) := by
    induction h with
    | nil => rfl
    | cons hfirst _ ih =>
      rw [List.map_cons, List.map_cons, hfirst.field, hfirst.score, ih]
  have hempty : ranks.isEmpty = ranks'.isEmpty := by cases h <;> rfl
  rw [blendOffer, blendOffer, hempty, hscores]

end Collector

variable [PatternEngines]

namespace Call

open Collector

/-! ### Plans -/

/-- The plans search for the same and list it in the same way, as far as searches and lookups
tell. -/
structure Plan.Alike (plan plan' : Plan) : Prop where
  query : plan.query.Equivalent plan'.query
  clauses : List.Forall₂ SortClause.Alike plan.clauses plan'.clauses
  ranks : List.Forall₂ RankSource.Alike plan.ranks plan'.ranks

variable {c c' : Call} {plan plan' : Plan} {segments : List Placed} {main main' : MainResult}

/-- Plans that rank and sort by the same are alike if their queries are. -/
theorem Plan.Alike.of_eq (hquery : plan.query.Equivalent plan'.query)
    (hclauses : plan.clauses = plan'.clauses) (hranks : plan.ranks = plan'.ranks) :
    plan.Alike plan' := by
  refine ⟨hquery, ?_, ?_⟩
  · rw [hclauses]
    exact List.forall₂_same.mpr fun clause _ => .refl clause
  · rw [hranks]
    exact List.forall₂_same.mpr fun rank _ => .refl rank

section Plan

variable (hplan : plan.Alike plan') (hcollapse : c'.request.collapse = c.request.collapse)
  (hratio : c'.ratio = c.ratio)
include hplan hratio

theorem Plan.Alike.found_eq : c'.found plan' segments = c.found plan segments := by
  show (offers plan'.query segments).map (blendOffer plan'.ranks c'.ratio) =
    (offers plan.query segments).map (blendOffer plan.ranks c.ratio)
  rw [hplan.query.offers_eq, hratio, funext (blendOffer_eq_of_alike hplan.ranks c.ratio)]

include hcollapse

/-- They list what they find in the same order. -/
theorem Plan.Alike.orders {ordered : List Hit} (h : c'.Orders plan' segments ordered) :
    c.Orders plan segments ordered := by
  rw [Orders, hcollapse, hplan.found_eq hratio, ← isBefore_eq_of_alike hplan.clauses,
    ← funext (sortedHit_eq_of_alike hplan.clauses)] at h
  exact h

/-- **Main searches by plans that are alike** find as many hits, and their pages are cut from the same
list. -/
theorem Describes.exists_ordered (h : c.Describes plan segments main)
    (h' : c'.Describes plan' segments main') :
    main.total = main'.total ∧ ∃ ordered : List Hit,
      main.hits = ordered.take c.request.stop.toNat ∧
        main'.hits = ordered.take c'.request.stop.toNat := by
  obtain ⟨ordered, hordered, hhits, htotal⟩ := h.page
  obtain ⟨ordered', hordered', hhits', htotal'⟩ := h'.page
  obtain rfl := hordered.unique (hplan.orders hcollapse hratio hordered')
  exact ⟨htotal.trans htotal'.symm, ordered, hhits, hhits'⟩

end Plan

/-! ### Keys that are handed on -/

/-- The keys in a field, if the plan says that they are handed on. -/
theorem Describes.lookup_keys (h : c.Describes plan segments main) (field : String) :
    (field ∉ plan.fields ∧ main.keys.lookup field = none) ∨
      ∃ bits, field ∈ plan.fields ∧ main.keys.lookup field = some bits ∧
        Answered plan.query field segments (bits.contains · = true) := by
  have hkeys := h.keys
  generalize plan.fields = fields, main.keys = keys at hkeys
  induction hkeys with
  | nil => exact .inl ⟨List.not_mem_nil, rfl⟩
  | @cons first e fields keys hfirst _ ih =>
    obtain ⟨rfl, hanswered⟩ := hfirst
    by_cases heq : field = e.1
    · subst heq
      exact .inr ⟨e.2, List.mem_cons_self, List.lookup_cons_self, hanswered⟩
    · have hlookup : (e :: keys).lookup field = keys.lookup field := by
        rw [List.lookup_cons, beq_false_of_ne heq]
      rw [hlookup, List.mem_cons]
      simpa only [heq, false_or] using ih

/-- The keys in a field that both plans have or neither, in whatever bits. -/
theorem Describes.lookup_alike (hquery : plan.query.Equivalent plan'.query)
    (h : c.Describes plan segments main) (h' : c'.Describes plan' segments main') {field : String}
    (hfield : field ∈ plan.fields ↔ field ∈ plan'.fields) :
    Option.Rel AlikeBits (main.keys.lookup field) (main'.keys.lookup field) := by
  rcases h.lookup_keys field with ⟨hno, hnone⟩ | ⟨bits, hmem, hbits, hanswered⟩ <;>
    rcases h'.lookup_keys field with ⟨hno', hnone'⟩ | ⟨bits', hmem', hbits', hanswered'⟩
  · rw [hnone, hnone']
    exact .none
  · exact absurd (hfield.mpr hmem') hno
  · exact absurd (hfield.mp hmem) hno'
  · rw [hbits, hbits']
    exact .some ((hanswered.of_equivalent hquery).alike hanswered')

/-- The main searches found the same, besides the hits of their pages. -/
structure MainResult.Alike (main main' : MainResult) : Prop where
  total : main.total = main'.total
  facets : main.facets = main'.facets
  keys : ∀ field, Option.Rel AlikeBits (main.keys.lookup field) (main'.keys.lookup field)

/-- **The main searches of a call and a variation of it** by plans that are alike. -/
theorem Describes.alike {settings : Settings} {live : Liveness} {start stop : UInt64}
    (hplan : plan.Alike plan') (hfields : plan.fields = plan'.fields)
    (h : c.Describes plan segments main)
    (h' : (c.vary settings live start stop).Describes plan' segments main') :
    main.Alike main' ∧ ∃ ordered : List Hit, main.hits = ordered.take c.request.stop.toNat ∧
      main'.hits = ordered.take stop.toNat := by
  have hcollapse : (c.vary settings live start stop).request.collapse = c.request.collapse := rfl
  have hratio : (c.vary settings live start stop).ratio = c.ratio := rfl
  obtain ⟨htotal, hordered⟩ := Describes.exists_ordered hplan hcollapse hratio h h'
  refine ⟨⟨htotal, ?_, fun field => h.lookup_alike hplan.query h' (by rw [hfields])⟩, hordered⟩
  rw [h.facets, h'.facets, hplan.query.offers_eq segments]
  rfl

/-! ### Facets of other cores -/

/-- The keys that the main search handed on for a field. -/
def MainResult.handed (main : MainResult) (field : String) : KeyBits :=
  (main.keys.lookup field).getD .empty

omit [PatternEngines] in
theorem MainResult.handed_alike {field : String}
    (h : Option.Rel AlikeBits (main.keys.lookup field) (main'.keys.lookup field)) :
    AlikeBits (main.handed field) (main'.handed field) := by
  rw [MainResult.handed, MainResult.handed]
  generalize main.keys.lookup field = bits, main'.keys.lookup field = bits' at h
  cases h with
  | none => exact ⟨KeyBits.proper_empty, KeyBits.proper_empty, fun _ => rfl⟩
  | some h => exact h

end Call

/-- What is asked of a core, among the documents with one of these keys. -/
def CoreQuery.relatedBy (core : CoreQuery) (ownField : String) (keys : KeyBits) : Query :=
  core.fullQuery.withFilter (.joinKeys ownField (.plain keys))

theorem CoreQuery.equivalent_relatedBy (core : CoreQuery) (ownField : String) {keys keys' : KeyBits}
    (h : AlikeBits keys keys') :
    (core.relatedBy ownField keys).Equivalent (core.relatedBy ownField keys') :=
  .withFilter _ (Query.equivalent_joinKeys ownField h.contains_eq)

namespace Call

open Collector

variable {c c' : Call} {main main' : MainResult}

variable {catalog : Catalog}

/-- A search for facets on the snapshot of a core. -/
theorem Grounded.outcome_faceting_eq_ok (h : c.Grounded catalog) {core : String} {snapshot : Snapshot}
    (hsnapshot : c.snapshot core = .ok snapshot) {requests : List FacetRequest} {query : Query}
    {facets : List Facet} :
    (faceting requests).outcome c.workshop snapshot query = .ok facets ↔
      (requests = [] ∨ Searchable query snapshot.segments) ∧
        facets = requests.map (facetOf (offers query snapshot.segments)) := by
  have houtcome : Meets _ _ ((faceting requests).outcome c.workshop snapshot query) :=
    ((h.taken.spreads hsnapshot c.workshop).comes_faceting snapshot.core requests).outcome
      (modest_faceting requests) (h.lists.snapshot hsnapshot)
  refine houtcome.eq_ok_iff ?_ fun _ hfacets _ hnot => hnot hfacets.1
  rintro _ _ ⟨-, rfl⟩ ⟨-, rfl⟩
  rfl

/-- **The facets of another core** count its documents with a key that the main search handed on. -/
theorem Grounded.relatedFacetsOf_eq_ok (h : c.Grounded catalog) {name : String} {core : CoreQuery}
    {facets : List Facet} :
    c.relatedFacetsOf main name core = .ok facets ↔
      ∃ field ownField snapshot, c.request.keyField c.target name = .ok field ∧
        c.request.keyField name c.target = .ok ownField ∧ c.snapshot name = .ok snapshot ∧
          (core.facets = [] ∨ Searchable (core.relatedBy ownField (main.handed field)) snapshot.segments) ∧
            facets = core.facets.map
              (facetOf (offers (core.relatedBy ownField (main.handed field)) snapshot.segments)) := by
  constructor
  · intro heq
    obtain ⟨field, hfield, heq⟩ := bind_eq_ok.mp heq
    obtain ⟨ownField, hownField, heq⟩ := bind_eq_ok.mp heq
    obtain ⟨snapshot, hsnapshot, heq⟩ := bind_eq_ok.mp heq
    exact ⟨field, ownField, snapshot, hfield, hownField, hsnapshot,
      (h.outcome_faceting_eq_ok hsnapshot).mp heq⟩
  · rintro ⟨field, ownField, snapshot, hfield, hownField, hsnapshot, hfacets⟩
    rw [relatedFacetsOf, hfield, ok_bind, hownField, ok_bind, hsnapshot, ok_bind]
    exact (h.outcome_faceting_eq_ok hsnapshot).mpr hfacets

section Vary

variable (h : c.Grounded catalog) (settings : Settings) (live : Liveness) (start stop : UInt64)
  (hmain : main.Alike main')
include h hmain

theorem Grounded.agrees_relatedFacetsOf (name : String) (core : CoreQuery) :
    Agrees Eq (c.relatedFacetsOf main name core)
      ((c.vary settings live start stop).relatedFacetsOf main' name core) := by
  have hvary : (c.vary settings live start stop).Grounded catalog := ⟨h.lists, h.taken, h.target⟩
  have hquery : ∀ field ownField, (core.relatedBy ownField (main.handed field)).Equivalent
      (core.relatedBy ownField (main'.handed field)) := fun field ownField =>
    core.equivalent_relatedBy ownField (MainResult.handed_alike (hmain.keys field))
  have hsearchable := fun field ownField => (hquery field ownField).searchable_iff
  have hoffers := fun field ownField => (hquery field ownField).offers_eq
  refine agrees_of_iff fun facets => ?_
  rw [h.relatedFacetsOf_eq_ok, hvary.relatedFacetsOf_eq_ok]
  simp only [hsearchable, hoffers]
  rfl

/-- The facets of all other cores are the same, and they are counted for both calls or for neither. -/
theorem Grounded.agrees_facetsOf :
    Agrees Eq (c.facetsOf main) ((c.vary settings live start stop).facetsOf main') := by
  have hfederated : (c.vary settings live start stop).isFederated = c.isFederated := rfl
  rw [facetsOf, facetsOf, hfederated]
  split
  · refine (agrees_mapM fun e _ => ?_).mono fun _ _ hall => List.forall₂_eq_eq_eq.symm ▸ hall
    exact (h.agrees_relatedFacetsOf settings live start stop hmain e.1 e.2).bind
      fun facets _ heq => .ok (congrArg (Prod.mk e.1) heq)
  · exact .ok rfl

end Vary

end Call

/-! ### Pages -/

/-- A hit as an entry of the page. -/
def Snapshot.entry (s : Snapshot) (hit : Hit) : PageHit :=
  ⟨((s.stored hit.doc).toOption.getD default).id, hit.score⟩

omit [PatternEngines] in
theorem Call.page_eq_map {c : Call} {snapshot : Snapshot} (hsnapshot : c.snapshot c.target = .ok snapshot)
    {hits : List Hit} {shown : List PageHit} (h : c.page hits = .ok shown) :
    shown = (hits.drop c.request.start.toNat).map snapshot.entry := by
  rw [page, hsnapshot, ok_bind, mapM_eq_ok] at h
  have hentries : List.Forall₂ (fun hit entry => snapshot.entry hit = entry)
      (hits.drop c.request.start.toNat) shown := by
    refine h.imp fun hit entry hentry => ?_
    obtain ⟨doc, hdoc, hentry⟩ := bind_eq_ok.mp hentry
    rw [Snapshot.entry, hdoc]
    exact Except.ok.inj hentry
  exact (List.forall₂_eq_eq_eq ▸ List.forall₂_map_left_iff.mpr hentries).symm

/-! ### Responses -/

/-- The responses are the same besides their pages and times, with the exported keys in whatever
bits. -/
structure Response.Alike (response response' : Response) : Prop where
  totalHits : response.totalHits = response'.totalHits
  facets : response.facets = response'.facets
  exportedKeys : Option.Rel AlikeBits response.exportedKeys response'.exportedKeys

omit [PatternEngines] in
theorem Call.alike_answer {main main' : MainResult} (c : Call) (settings : Settings) (live : Liveness)
    (start stop : UInt64) (hmain : main.Alike main') (related : List (String × List Facet))
    (hits hits' : List PageHit) (timings timings' : List PhaseTime) :
    (c.answer main related hits timings).Alike
      ((c.vary settings live start stop).answer main' related hits' timings') := by
  refine ⟨hmain.total, ?_, ?_⟩
  · rw [answer, answer, hmain.facets]
    rfl
  · show Option.Rel AlikeBits (c.request.exportKey.bind _) (c.request.exportKey.bind _)
    cases c.request.exportKey with
    | none => exact .none
    | some field => exact hmain.keys field

end FederatedSearch
