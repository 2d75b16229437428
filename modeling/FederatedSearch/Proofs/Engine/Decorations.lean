import FederatedSearch.Proofs.Engine.Extends

/-!
# Decorations never filter

More facets, more sort fields, more rank queries and an exported key may turn a request on a single
core into one that involves others, with more cores to go through and more collectors in the main
search. What the request without them gets is still there: the number of hits is the same, the facets
and the exported keys are, and unless hits are sorted or ranked in another way, so is the page.

The number of hits needs an argument of its own where hits are collapsed. Scores decide which hit of a
key goes on record, and so other rank queries lead to other records. But there is one for each key.

## Main definitions

* `Call.hitCount` — the number of hits, which scores have no part in
* `Call.Counted` — the documents that the facets of a core count
* `Response.Decorates` — a response with decorations

## Main results

* `Call.Orders.length_eq` — the number of hits
* `Call.Explains.exists_counted`, `Call.Extends.counted_eq` — facets
* `Session.decorates_answer` — at any time of a session
-/

namespace FederatedSearch

open Collector

/-! ### The number of hits -/

section Keys

variable (field : String) (items : List Offer) (ranks : List RankSource) (ratio : Binary32)

theorem Collector.key_blendOffer (e : Offer) : (blendOffer ranks ratio e).key field = e.key field := by
  rw [Offer.key, Offer.key, segment_blendOffer, doc_blendOffer]

theorem Collector.keys_blended :
    (items.map (blendOffer ranks ratio)).map (·.key field) = items.map (·.key field) := by
  rw [List.map_map]
  exact List.map_congr_left fun e _ => key_blendOffer field ranks ratio e

theorem Collector.keys_keyed :
    (keyed field items).map (·.1) = (items.map (·.key field)).filter (· ≠ noKey) := by
  rw [keyed, List.map_map, List.filter_map]
  rfl

theorem Collector.length_unkeyed :
    (unkeyed field items).length = (items.map (·.key field)).count noKey := by
  rw [unkeyed, List.length_map, ← List.countP_eq_length_filter, List.count, List.countP_map]
  rfl

end Keys

namespace Call

/-- The number of hits: one for each match, or if hits are collapsed, one for each match without a key
and one for each key. -/
def hitCount [PatternEngines] (c : Call) (query : Query) (segments : List Placed) : Nat :=
  match c.request.collapse with
  | some field =>
    let keys := (offers query segments).map (·.key field)
    keys.count noKey + (keys.filter (· ≠ noKey)).dedup.length
  | none => (offers query segments).length

/-- **The number of hits** does not depend on scores or on clauses. -/
theorem Orders.length_eq [PatternEngines] {c : Call} {plan : Plan} {segments : List Placed}
    {ordered : List Hit}
    (h : c.Orders plan segments ordered) : ordered.length = c.hitCount plan.query segments := by
  rw [Orders] at h
  rw [hitCount]
  cases hcollapse : c.request.collapse with
  | none =>
    rw [hcollapse] at h
    obtain rfl := h
    exact length_sorted_found.trans length_found
  | some field =>
    rw [hcollapse] at h
    obtain ⟨b, hcovers, rfl⟩ := h
    have hkeys : (c.found plan segments).map (·.key field) =
        (offers plan.query segments).map (·.key field) := keys_blended field _ plan.ranks c.ratio
    rw [length_sortBy, List.length_append, length_unkeyed, BestPerKey.hits, List.length_map,
      ← BestPerKey.size, hcovers.size_eq, keys_keyed, hkeys]

/-! ### Facets and exported keys -/

section Facets

variable {c : Call}

theorem mem_facetCores {name : String} {core : CoreQuery} :
    (name, core) ∈ c.facetCores ↔
      name ≠ c.target ∧ core = c.request.core name ∧ core.facets ≠ [] := by
  rw [facetCores, List.mem_filter, Request.mem_otherCores, Bool.not_eq_true', List.isEmpty_eq_false_iff]
  constructor
  · rintro ⟨⟨-, hother, hcore⟩, hfacets⟩
    exact ⟨hother, hcore, hfacets⟩
  · rintro ⟨hother, rfl, hfacets⟩
    have hlisted : name ∈ c.request.cores.keys := by
      by_contra hnot
      rw [Request.core_eq_of_not_listed hnot] at hfacets
      exact hfacets rfl
    exact ⟨⟨hlisted, hother, rfl⟩, hfacets⟩

/-- The cores with facets are different ones. -/
theorem nodup_facetCores : (c.facetCores.map (·.1)).Nodup := by
  have hsublist : (c.facetCores.map (·.1)).Sublist c.request.cores.keys :=
    (List.filter_sublist.trans List.filter_sublist).map _
  refine List.Nodup.sublist hsublist (c.request.cores.keys_sorted.imp fun {name other} hlt heq => ?_)
  rw [heq] at hlt
  exact String.lt_irrefl other hlt

/-- The fields to hand on lead to other cores with facets, or their keys are exported. -/
theorem mem_fieldsOf {fields : List String} (h : c.fieldsOf = .ok fields)
    (hfederated : c.isFederated = true) {field : String} :
    field ∈ fields ↔ (∃ e ∈ c.facetCores, c.request.keyField c.target e.1 = .ok field) ∨
      c.request.exportKey = some field := by
  rw [fieldsOf, if_pos hfederated] at h
  obtain ⟨related, hrelated, h⟩ := bind_eq_ok.mp h
  obtain rfl := Except.ok.inj h
  rw [NameMap.mem_keys_ofList, List.map_map]
  simp only [Function.comp_def, List.map_id', List.mem_append, Option.mem_toList]
  refine or_congr_left ⟨fun hmem => mem_of_mapM_eq_ok hrelated hmem, ?_⟩
  rintro ⟨e, he, hfield⟩
  obtain ⟨other, hmem, hother⟩ := exists_of_forall₂ (mapM_eq_ok.mp hrelated) he
  obtain rfl := Except.ok.inj (hother.symm.trans hfield)
  exact hmem

variable {plan : Plan} {segments : List Placed} {main : MainResult}
  {related : List (String × List Facet)} {response : Response}

/-- Other cores with facets are involved in the call. -/
theorem isFederated_of_call {e : Engine} {held : Liveness} {r : Request} (hcall : e.call held r = .ok c)
    (h : c.facetCores ≠ [] ∨ c.request.exportKey ≠ none) : c.isFederated = true := by
  by_contra hnot
  obtain ⟨hcores, -, -, hexport⟩ := Engine.single_of_call hcall (Bool.not_eq_true _ ▸ hnot)
  rcases h with hne | hne
  · rw [facetCores, hcores] at hne
    exact hne rfl
  · exact hne hexport

variable [PatternEngines]

variable (c plan segments main) in
/-- The documents that the facets of a core count: the matches of the result core, and those documents
of another core that the matches are related to. -/
inductive Counted (name : String) : List Offer → Prop
  | own (hown : name = c.target) : Counted name (offers plan.query segments)
  | related {field ownField : String} {snapshot : Snapshot} (hother : name ≠ c.target)
      (hfield : c.request.keyField c.target name = .ok field)
      (hownField : c.request.keyField name c.target = .ok ownField)
      (hsnapshot : c.snapshot name = .ok snapshot) (hhanded : field ∈ plan.fields) :
      Counted name
        (offers ((c.request.core name).relatedBy ownField (main.handed field)) snapshot.segments)

/-- The facets of other cores are listed by the cores. -/
theorem Explains.forall₂_related (h : c.Explains plan segments main related response)
    (hfederated : c.isFederated = true) :
    List.Forall₂ (fun e entry => entry.1 = e.1 ∧ c.relatedFacetsOf main e.1 e.2 = .ok entry.2)
      c.facetCores related := by
  have hfacets := h.facets
  rw [facetsOf, if_pos hfederated] at hfacets
  refine (mapM_eq_ok.mp hfacets).imp ?_
  rintro e entry hentry
  obtain ⟨facets, hfacets, hentry⟩ := bind_eq_ok.mp hentry
  obtain rfl := Except.ok.inj hentry
  exact ⟨rfl, hfacets⟩

theorem Explains.names_related (h : c.Explains plan segments main related response)
    {e : Engine} {held : Liveness} {r : Request} (hcall : e.call held r = .ok c) :
    related.map (·.1) = c.facetCores.map (·.1) := by
  by_cases hfederated : c.isFederated = true
  · refine (List.forall₂_eq_eq_eq ▸ List.forall₂_map_left_iff.mpr
      (List.forall₂_map_right_iff.mpr ?_) : _ = _).symm
    exact (h.forall₂_related hfederated).imp fun e entry hentry => hentry.1.symm
  · have hfacets := h.facets
    rw [facetsOf, if_neg hfederated] at hfacets
    obtain rfl := Except.ok.inj hfacets
    by_contra hne
    refine hfederated (isFederated_of_call hcall (.inl fun hnil => hne ?_))
    rw [hnil]
    rfl

/-- A response has the facets of each core under its name. -/
theorem Explains.find?_facets (h : c.Explains plan segments main related response)
    {e : Engine} {held : Liveness} {r : Request} (hcall : e.call held r = .ok c) {name : String}
    {facets : List Facet}
    (hmem : (name, facets) ∈ (if (c.request.core c.target).facets.isEmpty then []
      else [(c.target, main.facets)]) ++ related) :
    response.facets.find? name = some facets := by
  rw [h.answer]
  refine NameMap.find?_ofList_of_mem ?_ hmem
  rw [List.map_append, h.names_related hcall]
  split
  · exact nodup_facetCores
  · refine List.nodup_cons.mpr ⟨fun hown => ?_, nodup_facetCores⟩
    obtain ⟨⟨_, core⟩, hcore, rfl⟩ := List.mem_map.mp hown
    exact (mem_facetCores.mp hcore).1 rfl

/-- **The facets in a response** are counted for every core that the request wants facets of. -/
theorem Explains.exists_counted (h : c.Explains plan segments main related response)
    {catalog : Catalog} (hgrounded : c.Grounded catalog) {e : Engine} {held : Liveness} {r : Request}
    (hcall : e.call held r = .ok c) {name : String} (hname : (c.request.core name).facets ≠ []) :
    ∃ items, c.Counted plan segments main name items ∧
      response.facets.find? name = some ((c.request.core name).facets.map (facetOf items)) := by
  by_cases hown : name = c.target
  · subst hown
    refine ⟨_, .own rfl, h.find?_facets hcall (List.mem_append_left _ ?_)⟩
    rw [if_neg (by simpa using hname), ← h.describes.facets]
    exact List.mem_singleton_self _
  · have hcore : (name, c.request.core name) ∈ c.facetCores := mem_facetCores.mpr ⟨hown, rfl, hname⟩
    have hfederated : c.isFederated = true :=
      isFederated_of_call hcall (.inl (List.ne_nil_of_mem hcore))
    obtain ⟨⟨other, facets⟩, hmem, hother, hfacets⟩ :=
      exists_of_forall₂ (h.forall₂_related hfederated) hcore
    obtain rfl : other = name := hother
    obtain ⟨field, ownField, snapshot, hfield, hownField, hsnapshot, -, hcounts⟩ :=
      hgrounded.relatedFacetsOf_eq_ok.mp hfacets
    have hhanded : field ∈ plan.fields :=
      (mem_fieldsOf h.fields hfederated).mpr (.inl ⟨_, hcore, hfield⟩)
    refine ⟨_, .related hown hfield hownField hsnapshot hhanded, ?_⟩
    exact (h.find?_facets hcall (List.mem_append_right _ hmem)).trans (congrArg some hcounts)

/-- **Exported keys** are those of all matches. -/
theorem Explains.exists_exportedKeys (h : c.Explains plan segments main related response) {e : Engine}
    {held : Liveness} {r : Request} (hcall : e.call held r = .ok c) {field : String}
    (hfield : c.request.exportKey = some field) :
    ∃ keys, response.exportedKeys = some keys ∧
      Answered plan.query field segments (keys.contains · = true) := by
  have hfederated : c.isFederated = true :=
    isFederated_of_call hcall (.inr (hfield ▸ Option.some_ne_none field))
  have hmem : field ∈ plan.fields := (mem_fieldsOf h.fields hfederated).mpr (.inr hfield)
  have hresponse : response.exportedKeys = main.keys.lookup field := by
    rw [h.answer, Call.answer, hfield]
    rfl
  rcases h.describes.lookup_keys field with ⟨hno, -⟩ | ⟨keys, -, hkeys, hanswered⟩
  · exact absurd hmem hno
  · exact ⟨keys, hresponse.trans hkeys, hanswered⟩

end Facets

/-! ### Two calls -/

variable [PatternEngines]

section Extends

variable {c c' : Call} {plan plan' : Plan} {segments : List Placed} {main main' : MainResult}
  (h : c'.Extends c) (hquery : plan.query.Equivalent plan'.query)
  (hmain : c.Describes plan segments main) (hmain' : c'.Describes plan' segments main')
include h hquery hmain hmain'

/-- **Facets of both requests** count the same documents. -/
theorem Extends.counted_eq {name : String} {items items' : List Offer}
    (hitems : c.Counted plan segments main name items)
    (hitems' : c'.Counted plan' segments main' name items') : items = items' := by
  have htarget := h.target_eq
  cases hitems with
  | own hown =>
    cases hitems' with
    | own _ => exact hquery.offers_eq segments
    | related hother => exact absurd (hown.trans htarget.symm) hother
  | @related field ownField snapshot hother hfield hownField hsnapshot hhanded =>
    cases hitems' with
    | own hown => exact absurd (hown.trans htarget) hother
    | @related field' ownField' snapshot' _ hfield' hownField' hsnapshot' hhanded' =>
      rw [htarget] at hfield' hownField'
      obtain rfl : field = field' :=
        Except.ok.inj ((h.request.keyField hfield).symm.trans hfield')
      obtain rfl : ownField = ownField' :=
        Except.ok.inj ((h.request.keyField hownField).symm.trans hownField')
      obtain rfl : snapshot = snapshot' :=
        Except.ok.inj ((h.snapshot name snapshot hsnapshot).symm.trans hsnapshot')
      have hkeys : AlikeBits (main.handed field) (main'.handed field) :=
        MainResult.handed_alike (hmain.lookup_alike hquery hmain' (iff_of_true hhanded hhanded'))
      have hcore : (c'.request.core name).fullQuery = (c.request.core name).fullQuery :=
        (h.request.cores name).fullQuery_eq
      rw [CoreQuery.relatedBy, CoreQuery.relatedBy, hcore]
      exact ((c.request.core name).equivalent_relatedBy ownField hkeys).offers_eq snapshot.segments

end Extends

end Call

/-! ### Responses -/

/-- What the first response has is in the second one, which is to a request with decorations. -/
structure Response.Decorates (response' response : Response) (r' r : Request) : Prop where
  totalHits : response'.totalHits = response.totalHits
  /-- Only sort fields and rank queries show in the page. -/
  hits : r'.sort = r.sort → r'.rankQueries = r.rankQueries → response'.hits = response.hits
  /-- There is one answer to each facet request. -/
  facets : ∀ name, (r.core name).facets ≠ [] → ∃ count : FacetRequest → Facet,
    response.facets.find? name = some ((r.core name).facets.map count) ∧
      response'.facets.find? name = some ((r'.core name).facets.map count)
  exportedKeys : ∀ field, r.exportKey = some field → r'.exportKey = some field →
    ∃ keys keys', response.exportedKeys = some keys ∧ response'.exportedKeys = some keys' ∧
      AlikeBits keys keys'

namespace Call

section Extends

variable [PatternEngines] {c c' : Call} (h : c'.Extends c) {catalog : Catalog}
include h

/-- If the request is sorted and ranked in the same way then the clauses and the scores are the
same. -/
theorem Extends.mapM_clauseOf (hlists : c.Lists catalog) {fields : List SortField}
    {clauses : List SortClause}
    (hclauses : fields.mapM c.clauseOf = .ok clauses) : fields.mapM c'.clauseOf = .ok clauses :=
  mapM_eq_ok.mpr ((mapM_eq_ok.mp hclauses).imp fun _ _ hclause => h.clauseOf hlists hclause)

theorem Extends.mapM_rankOf (hlists : c.Lists catalog) {queries : List (String × Query)}
    {ranks : List RankSource} (hranks : (queries.mapM fun e => c.rankOf e.1 e.2) = .ok ranks) :
    (queries.mapM fun e => c'.rankOf e.1 e.2) = .ok ranks :=
  mapM_eq_ok.mpr ((mapM_eq_ok.mp hranks).imp fun _ _ hrank => h.rankOf hlists hrank)

variable {plan plan' : Plan} {snapshot : Snapshot} {main main' : MainResult}
  {related related' : List (String × List Facet)} {response response' : Response}
  (hquery : plan.query.Equivalent plan'.query)
  (hexplains : c.Explains plan snapshot.segments main related response)
  (hexplains' : c'.Explains plan' snapshot.segments main' related' response')
include hquery hexplains hexplains'

theorem Extends.totalHits_eq : response'.totalHits = response.totalHits := by
  obtain ⟨ordered, hordered, -, htotal⟩ := hexplains.describes.page
  obtain ⟨ordered', hordered', -, htotal'⟩ := hexplains'.describes.page
  have hcount : c'.hitCount plan'.query snapshot.segments = c.hitCount plan.query snapshot.segments := by
    rw [hitCount, hitCount, h.request.collapse, hquery.offers_eq]
  rw [hexplains.answer, hexplains'.answer, answer, answer, htotal, htotal', hordered.length_eq,
    hordered'.length_eq, hcount]

theorem Extends.hits_eq (hlists : c.Lists catalog) (hsnapshot : c.snapshot c.target = .ok snapshot)
    (hsort : c'.request.sort = c.request.sort)
    (hranks : c'.request.rankQueries = c.request.rankQueries) : response'.hits = response.hits := by
  have hclauses : plan.clauses = plan'.clauses :=
    Except.ok.inj ((h.mapM_clauseOf hlists hexplains.clauses).symm.trans (hsort ▸ hexplains'.clauses))
  have hscores : plan.ranks = plan'.ranks :=
    Except.ok.inj ((h.mapM_rankOf hlists hexplains.ranks).symm.trans (hranks ▸ hexplains'.ranks))
  obtain ⟨-, ordered, hhits, hhits'⟩ := Describes.exists_ordered (.of_eq hquery hclauses hscores)
    h.request.collapse h.ratio_eq hexplains.describes hexplains'.describes
  have hsnapshot' : c'.snapshot c'.target = .ok snapshot := by
    rw [h.target_eq]
    exact h.snapshot c.target snapshot hsnapshot
  rw [page_eq_map hsnapshot hexplains.page, page_eq_map hsnapshot' hexplains'.page, hhits, hhits',
    h.request.start, h.request.stop]

/-- **The response to a request with decorations.** -/
theorem Extends.decorates (hgrounded : c.Grounded catalog) {catalog' : Catalog}
    (hgrounded' : c'.Grounded catalog') (hsnapshot : c.snapshot c.target = .ok snapshot)
    {e e' : Engine} {held held' : Liveness} {r r' : Request} (hcall : e.call held r = .ok c)
    (hcall' : e'.call held' r' = .ok c') :
    response'.Decorates response c'.request c.request := by
  refine ⟨h.totalHits_eq hquery hexplains hexplains',
    h.hits_eq hquery hexplains hexplains' hgrounded.lists hsnapshot, fun name hname => ?_,
    fun field hfield hfield' => ?_⟩
  · have hname' : (c'.request.core name).facets ≠ [] := fun hnil =>
      hname (List.subset_nil.mp (hnil ▸ (h.request.cores name).facets))
    obtain ⟨items, hitems, hfacets⟩ := hexplains.exists_counted hgrounded hcall hname
    obtain ⟨items', hitems', hfacets'⟩ := hexplains'.exists_counted hgrounded' hcall' hname'
    obtain rfl := h.counted_eq hquery hexplains.describes hexplains'.describes hitems hitems'
    exact ⟨facetOf items, hfacets, hfacets'⟩
  · obtain ⟨keys, hkeys, hanswered⟩ := hexplains.exists_exportedKeys hcall hfield
    obtain ⟨keys', hkeys', hanswered'⟩ := hexplains'.exists_exportedKeys hcall' hfield'
    exact ⟨keys, keys', hkeys, hkeys', (hanswered.of_equivalent hquery).alike hanswered'⟩

end Extends

/-- **Engines with the same cores** set up calls for both requests. -/
theorem extends_of_call {e e' : Engine} (hcores : e'.cores = e.cores)
    (hsettings : e'.settings = e.settings)
    {held held' : Liveness} {r r' : Request} (hr : r'.Decorates r) {c c' : Call}
    (hcall : e.call held r = .ok c) (hcall' : e'.call held' r' = .ok c') : c'.Extends c := by
  obtain ⟨-, snapshots, hsnapshots, rfl⟩ := Engine.call_eq_ok.mp hcall
  obtain ⟨-, snapshots', hsnapshots', rfl⟩ := Engine.call_eq_ok.mp hcall'
  refine ⟨hr, hsettings, fun name snapshot hsnapshot => ?_⟩
  have hfind : snapshots.find? name = some snapshot := snapshot_eq_ok hsnapshot
  have hname : name ∈ r.referencedCores :=
    (Engine.isSome_snapshots_iff hsnapshots name).mp (Option.isSome_iff_exists.mpr ⟨snapshot, hfind⟩)
  obtain ⟨snapshot', hfind'⟩ := Option.isSome_iff_exists.mp
    ((Engine.isSome_snapshots_iff hsnapshots' name).mpr (hr.referencedCores_subset hname))
  obtain ⟨core, hcore, rfl⟩ := Engine.of_snapshots_eq_ok hsnapshots hfind
  obtain ⟨core', hcore', rfl⟩ := Engine.of_snapshots_eq_ok hsnapshots' hfind'
  rw [hcores] at hcore'
  obtain rfl : core = core' := Option.some.inj (hcore.symm.trans hcore')
  rw [Call.snapshot, hfind']

end Call

/-! ### At any time of a session -/

namespace Session

/-- **Decorations never filter.** If a request and the same request with more facets, sort fields and
rank queries and any exported key succeed in sessions with the same cores then the second response has
all that the first one has. -/
theorem decorates_answer [PatternEngines] (settings : Settings) {history history' : List Event}
    (hcores : (run settings history').cores = (run settings history).cores) {r r' : Request}
    (hr : r'.Decorates r) {schedules schedules' : List Schedule} {τ τ' : Type} (clock : StateM τ Nat)
    (clock' : StateM τ' Nat) {now : τ} {now' : τ'} {response response' : Response}
    (h : (run settings history).answer r schedules clock now = .ok response)
    (h' : (run settings history').answer r' schedules' clock' now' = .ok response') :
    response'.Decorates response r' r := by
  obtain ⟨catalog, c, plan, snapshot, main, related, hcall, hgrounded, hsound, -,
    ⟨all, hall, hquery⟩, hsnapshot, hexplains⟩ := exists_explains h
  obtain ⟨catalog', c', plan', snapshot', main', related', hcall', hgrounded', hsound', -,
    ⟨all', hall', hquery'⟩, hsnapshot', hexplains'⟩ := exists_explains h'
  have hsettings : (run settings history').engine.settings = (run settings history).engine.settings := by
    rw [engine_settings_run, engine_settings_run]
  have hextends : c'.Extends c :=
    Call.extends_of_call (cores_engine_eq hcores) hsettings hr hcall hcall'
  have hconstraints : all.Alike all' :=
    hextends.alike_constraints hgrounded hgrounded' hcall hcall' clock clock' hsound hsound' hall hall'
  obtain ⟨rfl, -, -⟩ := Engine.of_call_eq_ok hcall
  obtain ⟨rfl, -, -⟩ := Engine.of_call_eq_ok hcall'
  have hplan : plan.query.Equivalent plan'.query := by
    rw [hquery, hquery', Call.narrowed, Call.narrowed, hextends.target_eq,
      (hextends.request.cores c.target).fullQuery_eq]
    exact hconstraints.narrow _
  obtain rfl : snapshot = snapshot' := by
    rw [hextends.request.resultsFrom] at hsnapshot'
    exact Except.ok.inj ((hextends.snapshot _ _ hsnapshot).symm.trans hsnapshot')
  exact hextends.decorates hplan hexplains hexplains' hgrounded hgrounded' hsnapshot hcall hcall'

/-- All books, with their kinds. -/
def allBooks : Request := (Request.ofCore "books").facet "books" { field := "kind" }

/-- All books, by the kinds of their copies in stock. The copies are counted and ranked as well. -/
def decoratedBooks : Request :=
  ((((allBooks.join "books" "K" "stock" "K").facet "stock" { field := "kind" }).sortBy
    { core := some "stock", field := "kind" }).rank "stock" (.term "kind" "worn")).exporting "K"

/-- A request on a single core, and the same request with decorations that involve another core. -/
theorem decorates_answer_books :
    let session := run (.standard 2) stockHistory
    let later := stockHistory ++ [.execute allBooks [] (pure 0) 0]
    ∃ response response',
      session.answer allBooks [] (pure 0 : StateM Unit Nat) () = .ok response ∧
      (run (.standard 2) later).answer decoratedBooks [] (pure 0 : StateM Unit Nat) () = .ok response' ∧
      decoratedBooks.Decorates allBooks ∧ response'.Decorates response decoratedBooks allBooks := by
  intro session later
  obtain ⟨response, hresponse⟩ := exists_eq_ok
    (r := session.answer allBooks [] (pure 0 : StateM Unit Nat) ()) (by decide +kernel)
  obtain ⟨response', hresponse'⟩ := exists_eq_ok (r := (run (.standard 2) later).answer decoratedBooks []
    (pure 0 : StateM Unit Nat) ()) (by decide +kernel)
  have hdecorates : decoratedBooks.Decorates allBooks :=
    (Request.decorates_exporting _ "K").trans <| (Request.decorates_rank _ "stock" _).trans <|
      (Request.decorates_sortBy _ _).trans <| (Request.decorates_facet _ "stock" _).trans <|
        Request.decorates_join _ "books" "K" "stock" "K"
  exact ⟨response, response', hresponse, hresponse', hdecorates,
    decorates_answer _ (cores_run_execute _ _ _ _ _ _) hdecorates _ _ hresponse hresponse'⟩

end Session

end FederatedSearch
