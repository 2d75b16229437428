import FederatedSearch.Proofs.Collector.Faceted
import FederatedSearch.Proofs.Engine.Decorations

/-!
# The keys that are handed on

The main search hands on the keys of its matches: those in the fields that lead to other cores with
facets, and those in the field to export. The fields are gathered from all over the request, each is
collected once, whoever wants it, and the sets are found again by their fields.

What comes of this is said of documents. The matches are the live documents of the result core that
the planned query accepts, all of them, however the page is cut, sorted, ranked or collapsed. A set
of keys that was handed on has just their keys in its field, and the facets of another core count the
live documents of that core whose own field has one of those keys, among the documents that the core
is asked for.

## Main definitions

* `KeyBits.HoldsKeysOf` — a set has the keys of some documents
* `Call.FacetsBeside` — facets of another core, by the keys of the matches
* `Session.HandsOn` — what is exported and what is counted beside

## Main results

* `Answered.holdsKeysOf` — answers of segments are keys of documents
* `Call.Explains.facetsBeside` — facets of other cores
* `Session.handsOn_answer` — any response at any time of a session
-/

namespace FederatedSearch

/-! ### Keys of documents -/

/-- The set has just the keys that the documents hold in a field. Key 0 is no key. -/
def KeyBits.HoldsKeysOf (keys : KeyBits) (docs : List Document) (field : String) : Prop :=
  ∀ key, keys.contains key = true ↔ key ≠ noKey ∧ ∃ d ∈ docs, d.joinKey field = key

section Documents

variable [PatternEngines] {query : Query} {segments : List Placed} {field : String}

/-- The live documents that match, without their numbers. -/
def matchesOf (query : Query) (segments : List Placed) : List Document :=
  (documentsOf query segments).map (·.1)

/-- The answers of segments are the keys of their matches. -/
theorem exists_hasKey_iff_exists_document
    (hsearch : ∀ placed ∈ segments, ∃ hits, placed.segment.search query true = .ok hits)
    (key : JoinKey) :
    (∃ placed ∈ segments, placed.segment.HasKey query field key) ↔
      key ≠ noKey ∧ ∃ d ∈ matchesOf query segments, d.joinKey field = key := by
  have hkeys : (offers query segments).map (·.key field) =
      (matchesOf query segments).map (·.joinKey field) := by
    have hentries := congrArg (List.map Prod.fst) (map_entry_offers hsearch field)
    rw [List.map_map, List.map_map] at hentries
    rw [matchesOf, List.map_map]
    exact hentries
  have hmem : (∃ d ∈ matchesOf query segments, d.joinKey field = key) ↔
      ∃ e ∈ offers query segments, e.key field = key := by
    rw [← List.mem_map, ← hkeys, List.mem_map]
  rw [hmem]
  constructor
  · rintro ⟨placed, hplaced, hne, hits, hhits, hit, hhit, hkey⟩
    refine ⟨hne, (placed, hit), mem_offers.mpr ⟨hplaced, ?_⟩, hkey⟩
    rw [Segment.hits, hhits]
    exact hhit
  · rintro ⟨hne, ⟨placed, hit⟩, hoffer, hkey⟩
    obtain ⟨hplaced, hhit⟩ := mem_offers.mp hoffer
    obtain ⟨hits, hhits⟩ := hsearch placed hplaced
    rw [Segment.hits, hhits] at hhit
    exact ⟨placed, hplaced, hne, hits, hhits, hit, hhit, hkey⟩

/-- **Keys that segments answered** are the keys of all matches. -/
theorem Answered.holdsKeysOf {keys : KeyBits}
    (h : Answered query field segments (keys.contains · = true)) :
    keys.HoldsKeysOf (matchesOf query segments) field := by
  intro key
  rw [h.found_iff, exists_hasKey_iff_exists_document fun placed hmem => ?_]
  obtain ⟨hits, hhits, -⟩ := (h.answers placed hmem).admitted
  exact ⟨hits, hhits⟩

/-- Segments that can be read can be searched if the query can be evaluated. -/
theorem Searchable.exists_hits (h : Searchable query segments)
    (hindexed : ∀ placed ∈ segments, ∃ segment, placed.segment = .indexed segment) :
    ∀ placed ∈ segments, ∃ hits, placed.segment.search query true = .ok hits := by
  intro placed hmem
  obtain ⟨segment, hsegment⟩ := hindexed placed hmem
  rcases h with hcompiles | hnil
  · rw [hsegment]
    exact (IndexedSegment.exists_search_iff true).mpr hcompiles
  · exact absurd (hnil ▸ hmem) List.not_mem_nil

end Documents

/-! ### A call -/

namespace Call

variable [PatternEngines] {c : Call} {plan : Plan} {segments : List Placed} {main : MainResult}
  {related : List (String × List Facet)} {response : Response}

/-- These are the facets of another core, where `docs` are the matches of the result core. They count
what the core is asked for, among its documents with a key that leads there from one of those. -/
def FacetsBeside (c : Call) (docs : List Document) (name : String) (facets : List Facet) : Prop :=
  ∃ field ownField keys other,
    c.request.keyField c.request.resultsFrom name = .ok field ∧
    c.request.keyField name c.request.resultsFrom = .ok ownField ∧
    keys.HoldsKeysOf docs field ∧ c.snapshot name = .ok other ∧
    List.Forall₂ (fun request facet => request.IsAnswer (matchesOf
      ((c.request.core name).fullQuery.withFilter (.joinKeys ownField (.plain keys))) other.segments)
        facet) (c.request.core name).facets facets

/-- A field of the plan has its keys, whatever else is handed on. -/
theorem Describes.holdsKeysOf_handed (h : c.Describes plan segments main) {field : String}
    (hfield : field ∈ plan.fields) :
    (main.handed field).HoldsKeysOf (matchesOf plan.query segments) field := by
  rcases h.lookup_keys field with ⟨hno, -⟩ | ⟨keys, -, hkeys, hanswered⟩
  · exact absurd hfield hno
  · rw [MainResult.handed, hkeys]
    exact hanswered.holdsKeysOf

/-- **The facets of another core**, in a response. -/
theorem Explains.facetsBeside (h : c.Explains plan segments main related response)
    {catalog : Catalog} (hgrounded : c.Grounded catalog) {e : Engine} {held : Liveness} {r : Request}
    (hcall : e.call held r = .ok c) {name : String} (hother : name ≠ c.target)
    (hname : (c.request.core name).facets ≠ []) :
    ∃ facets, response.facets.find? name = some facets ∧
      c.FacetsBeside (matchesOf plan.query segments) name facets := by
  have hcore : (name, c.request.core name) ∈ c.facetCores := mem_facetCores.mpr ⟨hother, rfl, hname⟩
  have hfederated : c.isFederated = true :=
    isFederated_of_call hcall (.inl (List.ne_nil_of_mem hcore))
  obtain ⟨⟨other, facets⟩, hmem, hsame, hfacets⟩ :=
    exists_of_forall₂ (h.forall₂_related hfederated) hcore
  obtain rfl : other = name := hsame
  obtain ⟨field, ownField, snapshot, hfield, hownField, hsnapshot, hsearchable, hcounts⟩ :=
    hgrounded.relatedFacetsOf_eq_ok.mp hfacets
  -- the field is in the plan on account of this very core, so the look-up does not fall back on no keys
  have hhanded : field ∈ plan.fields :=
    (mem_fieldsOf h.fields hfederated).mpr (.inl ⟨_, hcore, hfield⟩)
  refine ⟨facets, h.find?_facets hcall (List.mem_append_right _ hmem), field, ownField,
    main.handed field, snapshot, hfield, hownField, h.describes.holdsKeysOf_handed hhanded, hsnapshot,
    ?_⟩
  have hsearch := (hsearchable.resolve_left hname).exists_hits
    (hgrounded.taken.indexed _ snapshot (snapshot_eq_ok hsnapshot))
  obtain ⟨core, indexed, rfl⟩ := hgrounded.taken _ snapshot (snapshot_eq_ok hsnapshot)
  obtain rfl : facets = _ := hcounts
  exact Collector.isAnswer_facetOf hsearch _ (List.Perm.refl _)

/-- **The exported keys**, in a response. -/
theorem Explains.rel_exportedKeys (h : c.Explains plan segments main related response) {e : Engine}
    {held : Liveness} {r : Request} (hcall : e.call held r = .ok c) :
    Option.Rel (fun field keys => keys.HoldsKeysOf (matchesOf plan.query segments) field)
      c.request.exportKey response.exportedKeys := by
  cases hfield : c.request.exportKey with
  | some field =>
    obtain ⟨keys, hkeys, hanswered⟩ := h.exists_exportedKeys hcall hfield
    rw [hkeys]
    exact .some hanswered.holdsKeysOf
  | none =>
    have hnone : response.exportedKeys = none := by rw [h.answer, Call.answer, hfield]; rfl
    rw [hnone]
    exact .none

end Call

/-! ### At any time of a session -/

namespace Session

section HandsOn

variable {τ : Type} (s : Session) (r : Request) (schedules : List Schedule) (clock : StateM τ Nat)
  (now : τ)

/-- The keys in the field to export are those of all matches, if there is one, and all other cores
that the request wants facets of have theirs by the keys of all matches. The matches are the live
documents of the result core that the planned query accepts. -/
def HandsOn [PatternEngines] (response : Response) : Prop :=
  ∃ (c : Call) (plan : Call.Plan) (snapshot : Snapshot),
    s.engine.call s.isHeld r = .ok c ∧
    ((CallM.toAct (c.planPhase clock)).result (s.beginning schedules now)).1 = .ok plan ∧
    c.snapshot r.resultsFrom = .ok snapshot ∧
    Option.Rel (fun field keys => keys.HoldsKeysOf (matchesOf plan.query snapshot.segments) field)
      r.exportKey response.exportedKeys ∧
    ∀ name, name ≠ r.resultsFrom → (r.core name).facets ≠ [] →
      ∃ facets, response.facets.find? name = some facets ∧
        c.FacetsBeside (matchesOf plan.query snapshot.segments) name facets

end HandsOn

/-- No page at all of the books, one for each key, while the copies are counted by the key that is
exported too. -/
def countedBeside : Request :=
  (((((Request.ofCore "books").join "books" "K" "stock" "K").facet "stock" { field := "kind" }).exporting
    "K").page 0 0).collapsing "K"

/-- The page is empty and no key is lost. -/
example : (((run (.standard 2) stockHistory).answer countedBeside []
    (pure 0 : StateM Unit Nat) ()).toOption.map fun response =>
      (response.hits, response.exportedKeys.map (·.toList))) = some ([], some [1, 2]) := by
  decide +kernel

end Session

end FederatedSearch
