import FederatedSearch.Proofs.Engine.Answer
import FederatedSearch.Proofs.Request.Names
import FederatedSearch.Proofs.Search.Failures

/-!
# Unknown cores

A request can name a core in many places, and every phase of its call looks some of them up. The
engine takes the snapshots of all of them before the first phase starts. If a core is missing then
the request is turned down there, on account of the first missing name, and nothing has happened to
the caches. If none is missing then no phase comes across a missing core later on: each phase looks
up only what the request names, and nothing else in a call gives this failure.

## Main definitions

* `Call.FailsOnly` — all failures have a property, phase by phase

## Main results

* `Engine.snapshots_eq_error` — the first missing name is reported
* `Call.failsOnly_underway` — what the phases of a call with all snapshots can fail with
* `Call.FailsOnly.respond` — the whole call fails with what its phases fail with
* `Engine.unknown_cores_first` — missing cores are found before the first phase, or not at all
-/

namespace FederatedSearch

open Failure (Underway)

/-! ### Taking the snapshots -/

namespace Engine

/-- The snapshot of a core with its name. -/
def named (e : Engine) (name : String) : Except Failure (String × Snapshot) :=
  match e.cores.find? name with
  | some core => .ok (name, Snapshot.ofCore core)
  | none => .error (.unknownCore name)

variable {e : Engine} {names : List String}

theorem snapshots_eq (e : Engine) (names : List String) :
    e.snapshots names = names.mapM e.named >>= fun entries => pure (.ofList entries) := rfl

theorem snapshots_eq_error {name : String}
    (h : names.find? (fun other => (e.cores.find? other).isNone) = some name) :
    e.snapshots names = .error (.unknownCore name) := by
  have hnames : names.mapM e.named = .error (.unknownCore name) := by
    induction names with
    | nil => exact nomatch h
    | cons first names ih =>
      rw [List.mapM_cons, named]
      cases hfirst : e.cores.find? first with
      | none =>
        obtain rfl : first = name := by simpa [hfirst] using h
        rfl
      | some core =>
        have hrest := ih (by simpa [hfirst] using h)
        simp only [ok_bind, hrest, error_bind]
  rw [snapshots_eq, hnames, error_bind]

theorem exists_snapshots_eq_ok (h : ∀ name ∈ names, e.cores.find? name ≠ none) :
    ∃ snapshots, e.snapshots names = .ok snapshots := by
  refine ((FailsOnly.mapM fun name hname => ?_).bind fun _ => failsOnly_ok _).exists_eq_ok
  obtain ⟨core, hcore⟩ := Option.ne_none_iff_exists'.mp (h name hname)
  rw [hcore]
  exact failsOnly_ok _

end Engine

/-! ### Relational expressions -/

theorem RelationalExpr.failsOnly_evaluate {σ : Type} {p : Failure → Prop}
    {collect : String → Query → String → Act σ KeyBits} {e : RelationalExpr}
    (h : ∀ core query field, e.HasLeaf core query field →
      ∀ narrowed, (collect core narrowed field).FailsOnly p) :
    ∀ restriction, (e.evaluate collect restriction).FailsOnly p := by
  induction e with
  | leaf core query field =>
    intro restriction
    exact (h core query field .leaf _).bind fun _ => Act.failsOnly_pure _
  | and first second ihf ihs =>
    intro restriction
    exact (ihf (fun _ _ _ hleaf => h _ _ _ (.andFirst hleaf)) _).bind fun _ =>
      (ihs (fun _ _ _ hleaf => h _ _ _ (.andSecond hleaf)) _).bind fun _ => Act.failsOnly_pure _
  | or first second ihf ihs =>
    intro restriction
    exact (ihf (fun _ _ _ hleaf => h _ _ _ (.orFirst hleaf)) _).bind fun _ =>
      (ihs (fun _ _ _ hleaf => h _ _ _ (.orSecond hleaf)) _).bind fun _ => Act.failsOnly_pure _
  | not inner ih =>
    intro restriction
    exact (ih (fun _ _ _ hleaf => h _ _ _ (.not hleaf)) _).bind fun _ => Act.failsOnly_pure _

/-! ### The phases -/

/-- A computation that gets the next schedule and then works on the caches. -/
theorem CallStore.failsOnly_onCaches {α : Type} {p : Failure → Prop} {a : Schedule → Act Caches α}
    (h : ∀ schedule, (a schedule).FailsOnly p) :
    (nextSchedule >>= fun schedule => onCaches (a schedule)).FailsOnly p :=
  fun s => h (s.schedules.headD []) s.caches

theorem Request.failsOnly_keyField (r : Request) (source target : String) :
    FailsOnly Underway (r.keyField source target) := by
  rw [keyField]
  split
  · exact failsOnly_ok _
  · exact failsOnly_error (.missingRelation _ _)

namespace Call

/-- All failures of the call have the property, in every phase, for everything that the request asks
for and whatever the caches hold by then. -/
structure FailsOnly [PatternEngines] (p : Failure → Prop) (c : Call) : Prop where
  leaf : ∀ filter, c.request.relationalFilter = some filter →
    ∀ core query field, filter.expr.HasLeaf core query field → ∀ restriction,
      ((RelationalExpr.leaf core query field).evaluate c.collectKeys restriction).FailsOnly p
  relational : ∀ filter, c.request.relationalFilter = some filter →
    ∀ all, (c.requireRelational all filter).FailsOnly p
  unite : ∀ u ∈ c.request.unites, ∀ all, (c.requireUnite all u).FailsOnly p
  core : ∀ other ∈ c.request.otherCores, ∀ all, (c.requireCore all other.1 other.2).FailsOnly p
  fields : FederatedSearch.FailsOnly p c.handedFields
  ownClause : ∀ f ∈ c.request.sort, FederatedSearch.FailsOnly p (SortClause.own? f)
  relatedClause : ∀ f ∈ c.request.sort, ∀ core, f.core = some core →
    (c.relatedClause core f).FailsOnly p
  rank : ∀ entry ∈ c.request.rankQueries.entries, (c.rankSource entry.1 entry.2).FailsOnly p
  main : ∀ query clauses ranks fields, (c.pageSearch query clauses ranks fields).FailsOnly p
  facets : ∀ other ∈ c.request.otherCores, ∀ main,
    (c.relatedFacets other.1 other.2 main).FailsOnly p
  page : ∀ hits, FederatedSearch.FailsOnly p (c.page hits)

section Phases

variable {c : Call}

theorem failsOnly_keyField (source target : String) :
    (c.keyField source target).FailsOnly Underway :=
  Act.failsOnly_ofExcept (c.request.failsOnly_keyField source target)

/-- The call has a snapshot of every core that its request names. -/
def HasSnapshots (c : Call) : Prop :=
  ∀ name, c.request.Names name → ∃ snapshot, c.snapshot name = .ok snapshot

variable (h : c.HasSnapshots) {name : String} (hname : c.request.Names name)
include h hname

theorem HasSnapshots.failsOnly_snapshot : FederatedSearch.FailsOnly Underway (c.snapshot name) := by
  obtain ⟨snapshot, hsnapshot⟩ := h name hname
  exact hsnapshot ▸ failsOnly_ok snapshot

variable [PatternEngines]

theorem HasSnapshots.failsOnly_search {B L P F : Type} {collector : Collector B L P F}
    (hcollector : collector.FailsOnly Underway) (query : Query) :
    (c.search name query collector).FailsOnly Underway :=
  (Act.failsOnly_ofExcept (h.failsOnly_snapshot hname)).bind fun snapshot =>
    CallStore.failsOnly_onCaches fun schedule =>
      Caches.failsOnly_search c.workshop schedule snapshot query hcollector

theorem HasSnapshots.failsOnly_collectKeys (query : Query) (field : String) :
    (c.collectKeys name query field).FailsOnly Underway :=
  (Act.failsOnly_ofExcept (h.failsOnly_snapshot hname)).bind fun snapshot =>
    CallStore.failsOnly_onCaches fun schedule =>
      Caches.failsOnly_collectKeys c.workshop schedule snapshot query field

theorem HasSnapshots.failsOnly_uniteSide (query : Query) (partner : String) :
    (c.uniteSide name query partner).FailsOnly Underway := by
  rw [uniteSide]
  split
  · exact (failsOnly_keyField _ _).bind fun _ =>
      (h.failsOnly_collectKeys hname _ _).bind fun _ => Act.failsOnly_pure _
  · exact (failsOnly_keyField _ _).bind fun _ => (failsOnly_keyField _ _).bind fun _ =>
      (h.failsOnly_collectKeys hname _ _).bind fun _ => Act.failsOnly_pure _

theorem HasSnapshots.failsOnly_requireCore (all : Constraints) (core : CoreQuery) :
    (c.requireCore all name core).FailsOnly Underway := by
  refine (failsOnly_keyField _ _).bind fun field => (failsOnly_keyField _ _).bind fun ownField => ?_
  refine (Act.FailsOnly.foldlM (fun filter _ all =>
    (h.failsOnly_collectKeys hname _ _).bind fun _ => Act.failsOnly_pure _) _).bind fun all => ?_
  refine (Act.FailsOnly.foldlM (fun exclude _ all =>
    (h.failsOnly_collectKeys hname _ _).bind fun _ => Act.failsOnly_pure _) _).bind fun all => ?_
  split
  · split
    · exact Act.failsOnly_pure _
    · exact (h.failsOnly_collectKeys hname _ _).bind fun _ => Act.failsOnly_pure _
  · exact Act.failsOnly_pure _

theorem HasSnapshots.failsOnly_relatedClause (f : SortField) :
    (c.relatedClause name f).FailsOnly Underway :=
  (failsOnly_keyField _ _).bind fun ownField =>
    (h.failsOnly_search hname (Collector.failsOnly_firstDocs ownField) _).bind fun table =>
      (failsOnly_keyField _ _).bind fun field =>
        (Act.failsOnly_ofExcept (h.failsOnly_snapshot hname)).bind fun other =>
          Act.failsOnly_ofExcept (SortClause.failsOnly_related? f field table other)

theorem HasSnapshots.failsOnly_rankSource (query : Query) :
    (c.rankSource name query).FailsOnly Underway :=
  (failsOnly_keyField _ _).bind fun ownField =>
    (h.failsOnly_search hname (Collector.failsOnly_rankScores ownField) _).bind fun _ =>
      (failsOnly_keyField _ _).bind fun _ => Act.failsOnly_pure _

theorem HasSnapshots.failsOnly_relatedFacets (core : CoreQuery) (main : MainResult) :
    (c.relatedFacets name core main).FailsOnly Underway :=
  (failsOnly_keyField _ _).bind fun _ => (failsOnly_keyField _ _).bind fun _ =>
    h.failsOnly_search hname (Collector.failsOnly_faceting core.facets) _

omit hname

theorem HasSnapshots.failsOnly_requireUnite {u : Unite} (hu : u ∈ c.request.unites)
    (all : Constraints) : (c.requireUnite all u).FailsOnly Underway := by
  refine (h.failsOnly_uniteSide (.uniteA hu) _ _).bind fun ⟨fieldA, _⟩ =>
    (h.failsOnly_uniteSide (.uniteB hu) _ _).bind fun ⟨fieldB, _⟩ => ?_
  show (if fieldA = fieldB then _ else _ : Act CallStore Constraints).FailsOnly Underway
  split
  · exact Act.failsOnly_pure _
  · exact Act.failsOnly_ofExcept (failsOnly_error (.invalidRequest _))

theorem HasSnapshots.failsOnly_mainSearch {B L P F : Type} {page : Collector B L P F}
    (hpage : page.FailsOnly Underway) (query : Query) (pageOf : F → List Hit × Option Nat)
    (ranks : List RankSource) (fields : List String) :
    (c.mainSearch query page pageOf ranks fields).FailsOnly Underway := by
  have hkeys : (Collector.many (fields.map joinKeys)).FailsOnly Underway := by
    refine .many fun collector hmem => ?_
    obtain ⟨field, -, rfl⟩ := List.mem_map.mp hmem
    exact Collector.failsOnly_joinKeys field
  have hbeside := Collector.failsOnly_counting.both
    ((Collector.failsOnly_faceting (c.request.core c.target).facets).both hkeys)
  exact (h.failsOnly_search .result ((hpage.blended ranks _).both hbeside) query).bind
    fun _ => Act.failsOnly_pure _

theorem HasSnapshots.failsOnly_pageSearch (query : Query) (clauses : List SortClause)
    (ranks : List RankSource) (fields : List String) :
    (c.pageSearch query clauses ranks fields).FailsOnly Underway := by
  rw [pageSearch]
  split
  · exact h.failsOnly_mainSearch (Collector.failsOnly_collapsing _ _ _) _ _ _ _
  · split
    · exact h.failsOnly_mainSearch (Collector.failsOnly_mostRelevant _) _ _ _ _
    · exact h.failsOnly_mainSearch (Collector.failsOnly_firstInOrder _ _) _ _ _ _

/-- **With all snapshots taken** no phase fails on account of a core that is missing. -/
theorem failsOnly_underway : c.FailsOnly Underway := by
  have hother : ∀ other ∈ c.request.otherCores, c.request.Names other.1 := fun other hmem =>
    .participant (List.mem_map_of_mem (List.mem_of_mem_filter hmem))
  have hcollect : ∀ filter, c.request.relationalFilter = some filter →
      ∀ core query field, filter.expr.HasLeaf core query field →
        ∀ narrowed, (c.collectKeys core narrowed field).FailsOnly Underway :=
    fun filter hfilter core query field hleaf narrowed =>
      h.failsOnly_collectKeys (.leaf hfilter hleaf) narrowed field
  constructor
  case leaf =>
    intro filter hfilter core query field hleaf restriction
    exact (hcollect filter hfilter core query field hleaf _).bind fun _ => Act.failsOnly_pure _
  case relational =>
    intro filter hfilter all
    exact (RelationalExpr.failsOnly_evaluate (hcollect filter hfilter) none).bind
      fun _ => Act.failsOnly_pure _
  case unite => exact fun u hu all => h.failsOnly_requireUnite hu all
  case core => exact fun other hmem all => h.failsOnly_requireCore (hother other hmem) all other.2
  case fields =>
    exact (FailsOnly.mapM fun other _ => c.request.failsOnly_keyField _ _).bind
      fun _ => failsOnly_ok _
  case ownClause => exact fun f _ => SortClause.failsOnly_own? f
  case relatedClause =>
    exact fun f hf core hcore => h.failsOnly_relatedClause (.sorted hf hcore) f
  case rank =>
    exact fun entry hmem =>
      h.failsOnly_rankSource (.ranked (List.mem_map_of_mem hmem)) entry.2
  case main => exact h.failsOnly_pageSearch
  case facets => exact fun other hmem main => h.failsOnly_relatedFacets (hother other hmem) _ main
  case page =>
    intro hits
    refine (h.failsOnly_snapshot .result).bind fun snapshot => FailsOnly.mapM fun hit _ => ?_
    exact (snapshot.failsOnly_stored hit.doc).bind fun _ => failsOnly_ok _

end Phases

/-! ### The whole call -/

section Respond

variable {τ : Type} {p : Failure → Prop} {c : Call}

theorem failsOnly_timed {α : Type} {a : Act CallStore α} (h : a.FailsOnly p) (clock : StateM τ Nat)
    (phase core : String) : (CallM.toAct (c.timed clock phase core a)).FailsOnly p := by
  intro s
  obtain ⟨timings, t, hr⟩ := CallM.result_timed c clock phase core a s
  rw [hr]
  exact h s.1.toCallStore

variable [PatternEngines] (h : c.FailsOnly p) (clock : StateM τ Nat)
include h

theorem FailsOnly.constraintsPhase :
    (CallM.toAct (c.constraintsPhase clock)).FailsOnly p := by
  rw [Call.constraintsPhase]
  split
  · rw [constraints_eq]
    simp only [CallM.toAct_bind, CallM.toAct_foldlM]
    refine Act.FailsOnly.bind ?_ fun all => Act.FailsOnly.bind ?_ fun all => ?_
    · rw [relationalPhase]
      split
      · rename_i filter hfilter
        exact failsOnly_timed (h.relational filter hfilter _) clock _ _
      · exact Act.failsOnly_pure _
    · exact Act.FailsOnly.foldlM (fun u hu all => failsOnly_timed (h.unite u hu all) clock _ _) all
    · exact Act.FailsOnly.foldlM
        (fun other hmem all => failsOnly_timed (h.core other hmem all) clock _ _) all
  · exact Act.failsOnly_pure _

theorem FailsOnly.sortClauses : (CallM.toAct (c.sortClauses clock)).FailsOnly p := by
  rw [Call.sortClauses, CallM.toAct_mapM]
  refine Act.FailsOnly.mapM fun f hf => ?_
  split
  · rename_i core hcore
    split
    · exact Act.failsOnly_ofExcept (h.ownClause f hf)
    · exact failsOnly_timed (h.relatedClause f hf core hcore) clock _ _
  · exact Act.failsOnly_ofExcept (h.ownClause f hf)

theorem FailsOnly.facetsPhase (main : MainResult) :
    (CallM.toAct (c.facetsPhase clock main)).FailsOnly p := by
  rw [Call.facetsPhase]
  split
  · rw [Call.allRelatedFacets, CallM.toAct_mapM]
    refine Act.FailsOnly.mapM fun other hmem => ?_
    rw [CallM.toAct_bind]
    exact (failsOnly_timed (h.facets other (List.mem_of_mem_filter hmem) main) clock _ _).bind
      fun _ => Act.failsOnly_pure _
  · exact Act.failsOnly_pure _

/-- **A call** fails with what one of its phases fails with. -/
theorem FailsOnly.respond : (CallM.toAct (c.respond clock)).FailsOnly p := by
  rw [respond_eq]
  simp only [CallM.toAct_bind]
  refine (h.constraintsPhase clock).bind fun constraints => Act.FailsOnly.bind ?_ fun fields => ?_
  · rw [fieldsPhase]
    split
    · exact Act.failsOnly_ofExcept h.fields
    · exact Act.failsOnly_pure _
  refine (h.sortClauses clock).bind fun clauses => Act.FailsOnly.bind ?_ fun ranks => ?_
  · rw [Call.rankSources, CallM.toAct_mapM]
    exact Act.FailsOnly.mapM fun entry hmem => failsOnly_timed (h.rank entry hmem) clock _ _
  refine (failsOnly_timed (h.main _ _ _ _) clock _ _).bind fun main => ?_
  refine (h.facetsPhase clock main).bind fun related => ?_
  exact (Act.failsOnly_ofExcept (h.page main.hits)).bind fun hits => fun _ => failsOnly_ok _

end Respond

end Call

/-! ### The engine -/

namespace Engine

variable {e : Engine} (held : Liveness) {r : Request}

/-- A missing core turns the request down, and the first missing name is the one reported. -/
theorem call_eq_error (hvalid : r.validate = .ok ()) {name : String} (hname : r.Names name)
    (hmissing : e.cores.find? name = none) :
    ∃ least, r.Names least ∧ e.cores.find? least = none ∧
      (∀ other, r.Names other → e.cores.find? other = none → least ≤ other) ∧
      e.call held r = .error (.unknownCore least) := by
  have hsome : (r.referencedCores.find? fun other => (e.cores.find? other).isNone).isSome := by
    rw [List.find?_isSome]
    exact ⟨name, Request.mem_referencedCores_iff.mpr hname, by rw [hmissing]; rfl⟩
  obtain ⟨least, hleast⟩ := Option.isSome_iff_exists.mp hsome
  obtain ⟨hnone, before, after, hlist, hbefore⟩ := List.find?_eq_some_iff_append.mp hleast
  refine ⟨least, Request.mem_referencedCores_iff.mp (List.mem_of_find?_eq_some hleast),
    Option.isNone_iff_eq_none.mp hnone, fun other hother hmissing => ?_, ?_⟩
  · have hsorted := r.referencedCores_sorted
    have hmem := Request.mem_referencedCores_iff.mpr hother
    rw [hlist] at hsorted hmem
    -- the names before the least one are registered, those behind it are greater
    rcases List.mem_append.mp hmem with hmem | hmem
    · have hfound := hbefore other hmem
      rw [hmissing] at hfound
      exact absurd hfound (by decide)
    · rcases List.mem_cons.mp hmem with rfl | hmem
      · exact String.le_refl _
      · have hlt := (List.pairwise_cons.mp (List.pairwise_append.mp hsorted).2.1).1 other hmem
        exact String.lt_asymm hlt
  · show (r.validate >>= fun _ => e.snapshots r.referencedCores >>= fun _ => _) = _
    rw [hvalid, ok_bind, snapshots_eq_error hleast, error_bind]

/-- **Unknown cores are found first.** If a valid request names a core that is not registered, then
it is turned down with the least such name, and the engine is left as it was, with its caches and
their statistics. If all names are registered, then the call is set up, each of its phases can fail
in other ways only, and so can the whole call. -/
theorem unknown_cores_first [PatternEngines] (hvalid : r.validate = .ok ()) {τ : Type}
    (clock : StateM τ Nat) : ((∃ name, r.Names name ∧ e.cores.find? name = none) →
      ∃ least, r.Names least ∧ e.cores.find? least = none ∧
        (∀ other, r.Names other → e.cores.find? other = none → least ≤ other) ∧
        ∀ schedules now,
          e.execute clock held r schedules now = ((.error (.unknownCore least), e), now)) ∧
    ((∀ name, r.Names name → e.cores.find? name ≠ none) →
      (∃ c, e.call held r = .ok c ∧ c.FailsOnly Underway) ∧
        (∀ core, ¬ Underway (.unknownCore core)) ∧
        ∀ schedules now core,
          (e.execute clock held r schedules now).1.1 ≠ .error (.unknownCore core)) := by
  have hother : ∀ core, ¬ Underway (.unknownCore core) := fun core h => nomatch h
  constructor
  · rintro ⟨name, hname, hmissing⟩
    obtain ⟨least, hleast, hnone, hle, hcall⟩ := call_eq_error held hvalid hname hmissing
    exact ⟨least, hleast, hnone, hle,
      fun schedules => execute_of_call_error clock held r schedules hcall⟩
  · intro hall
    have hlisted : ∀ name ∈ r.referencedCores, e.cores.find? name ≠ none := fun name hmem =>
      hall name (Request.mem_referencedCores_iff.mp hmem)
    obtain ⟨snapshots, hsnapshots⟩ := exists_snapshots_eq_ok hlisted
    let c : Call := ⟨r, e.settings, snapshots, fun id => e.holds id || held id, r.isFederated⟩
    have hcall : e.call held r = .ok c := call_eq_ok.mpr ⟨hvalid, snapshots, hsnapshots, rfl⟩
    have hhas : c.HasSnapshots := by
      intro name hname
      obtain ⟨snapshot, hfind⟩ := Option.isSome_iff_exists.mp
        ((isSome_snapshots_iff hsnapshots name).mpr (Request.mem_referencedCores_iff.mpr hname))
      exact ⟨snapshot, by rw [Call.snapshot, hfind]⟩
    have hfails := c.failsOnly_underway hhas
    refine ⟨⟨c, hcall, hfails⟩, hother, fun schedules now core herror => ?_⟩
    rw [execute_of_call clock held r schedules hcall] at herror
    exact hother core (hfails.respond clock _ _ herror)

/-- Books by their authors, without those that were reviewed. Nobody registered authors or
reviews. -/
def byAuthors : Request :=
  (((Request.ofCore "books").relational "K" (.not (.leaf "reviews" .all "K"))).sortBy
    { core := some "authors", field := "name" }).participate "stock"

theorem unknown_cores_first_stock :
    let e := (Session.run (.standard 2) Session.stockHistory).engine
    let held : Liveness := fun _ => false
    byAuthors.validate = .ok () ∧
      (∀ schedules now, e.execute (pure 0 : StateM Unit Nat) held byAuthors schedules now =
        ((.error (.unknownCore "authors"), e), now)) ∧
      ∃ c, e.call held Session.stockRequest = .ok c ∧ c.FailsOnly Underway := by
  intro e held
  have hlist : byAuthors.referencedCores = ["authors", "books", "reviews", "stock"] := by
    decide +kernel
  have hauthors : byAuthors.Names "authors" :=
    Request.mem_referencedCores_iff.mp (by rw [hlist]; exact List.mem_cons_self)
  have hmissing : e.cores.find? "authors" = none := by rfl
  have hvalid : byAuthors.validate = .ok () := rfl
  obtain ⟨least, hleast, hnone, hle, hexecute⟩ :=
    (unknown_cores_first held hvalid (pure 0 : StateM Unit Nat)).1 ⟨"authors", hauthors, hmissing⟩
  obtain rfl : least = "authors" := by
    have hmem := Request.mem_referencedCores_iff.mpr hleast
    have hreviews : ¬ ("reviews" : String) ≤ "authors" := by decide
    simp only [hlist, List.mem_cons, List.not_mem_nil, or_false] at hmem
    obtain rfl | rfl | rfl | rfl := hmem
    · rfl
    · exact nomatch hnone
    · exact absurd (hle "authors" hauthors hmissing) hreviews
    · exact nomatch hnone
  have hnames : Session.stockRequest.referencedCores = ["books", "stock"] := by decide +kernel
  have hall : ∀ name, Session.stockRequest.Names name → e.cores.find? name ≠ none := by
    intro name hname
    have hmem := Request.mem_referencedCores_iff.mpr hname
    simp only [hnames, List.mem_cons, List.not_mem_nil, or_false] at hmem
    obtain rfl | rfl := hmem
    · exact nofun
    · exact nofun
  exact ⟨hvalid, hexecute, ((unknown_cores_first held rfl (pure 0 : StateM Unit Nat)).2 hall).1⟩

end Engine

end FederatedSearch
