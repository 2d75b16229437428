import FederatedSearch.Engine.Basic
import FederatedSearch.Proofs.Cache.KeySets
import FederatedSearch.Proofs.NameMap

/-!
# Calls leave the caches sound

Every phase of a call works on the caches through searches, and every search leaves sound caches
sound. So a whole call does, whether it succeeds or not. Nothing is asked of the request for this,
only that the segments of the snapshots are in the catalog.

The time does not matter to the caches. A phase of a call does to them what its searches do, and
whatever the clock says is put beside the result.

## Main definitions

* `CallM.toAct` — a call that reads a clock with a state, as a computation on both states

## Main results

* `CallM.result_timed` — the time does not show
* `Call.respond_keeps` — a call leaves sound caches sound
* `Engine.execute_sound` — and so does the engine
-/

namespace FederatedSearch

/-! ### Searches -/

section Searches

variable {B L P F : Type} {catalog : Catalog}

variable (c : Collector B L P F) (w : Workshop) (query : Query)

/-- What a collector does leaves the columns alone. -/
theorem ensures_focus_second {α : Type} (p : Process B α) (s : Workbench B) :
    (p.focus .second).Ensures (.keeping fun s : Workbench B => KeyColumns.Sound catalog s.1)
      (fun _ _ => True) (fun _ => True) s := by
  have hall : p.Ensures .any (fun _ _ => True) (fun _ => True) (Part.second.get s) :=
    (Process.endsOnly_true p).ensures _
  exact hall.focus (fun _ _ => rfl) (fun _ _ _ => id) (fun _ _ _ h => h) fun _ => trivial

variable [PatternEngines]

theorem Collector.ensures_runSegment {placed : Placed} (hlists : catalog.Lists placed.segment) (l : L)
    (s : Workbench B) :
    (c.runSegment w query l placed).Ensures (.keeping fun s => KeyColumns.Sound catalog s.1)
      (fun _ _ => True) (fun _ => True) s := by
  rw [runSegment, openSegment]
  simp only [bind_assoc, pure_bind]
  refine (ensures_focus_second _ _).bind fun binding t _ _ => ?_
  refine ((ensures_loadColumns hlists w.live binding.fields t.1).focus (fun _ _ => rfl) (fun _ _ h => h)
    (fun _ _ h => h) fun _ => trivial).bind fun columns u _ _ => ?_
  cases binding.visit with
  | skip => exact Process.ensures_pure trivial
  | docs =>
    have hhits : (Process.ofExcept (placed.segment.search query c.needsScores)).Ensures
        (.keeping fun s : Workbench B => KeyColumns.Sound catalog s.1) (fun _ _ => True) (fun _ => True) u :=
      Process.ensures_ofExcept (meets_iff.mpr ⟨fun _ _ => trivial, fun _ _ => trivial⟩)
    refine hhits.bind fun hits v _ _ => ?_
    exact (Process.ensures_foldlM_of_inv (fun _ _ => True)
      (fun _ _ _ _ _ _ => ensures_focus_second _ _) trivial).bind fun _ _ _ _ => ensures_focus_second _ _

theorem Collector.ensures_runGroup {group : List Placed}
    (hlists : ∀ placed ∈ group, catalog.Lists placed.segment) (s : Workbench B) :
    (c.runGroup w query group).Ensures (.keeping fun s => KeyColumns.Sound catalog s.1)
      (fun _ _ => True) (fun _ => True) s := by
  refine (ensures_focus_second _ _).bind fun l t _ _ => ?_
  refine (Process.ensures_foldlM_of_inv (fun _ _ => True) (fun placed hmem l u _ _ =>
    c.ensures_runSegment w query (hlists placed hmem) l u) trivial).bind fun _ _ _ _ => ?_
  exact ensures_focus_second _ _

variable (schedule : Schedule) {snapshot : Snapshot}
  (hlists : ∀ placed ∈ snapshot.segments, catalog.Lists placed.segment)
include hlists

/-- Whatever a collector does, and on whatever schedule. -/
theorem Collector.search_keeps :
    Act.Keeps (KeyColumns.Sound catalog) (c.search w schedule snapshot query) := by
  intro columns hcolumns
  have hgroups : ∀ group ∈ groupsOf w snapshot, (c.runGroup w query group).Ensures
      (.keeping fun s => KeyColumns.Sound catalog s.1) (fun _ _ => True) (fun _ => True)
      (columns, c.board) := fun group hgroup => c.ensures_runGroup w query
    (fun placed hmem => hlists placed ((sublist_of_mem_groupsOf hgroup).subset hmem)) _
  have hspurious : ∀ turn ∈ schedule, turn.spurious = true →
      (Regime.keeping fun s : Workbench B => KeyColumns.Sound catalog s.1).spurious := fun _ _ _ => trivial
  have hkept := (Gathering.ensures_gather hgroups (fun _ _ _ _ _ h => h) hspurious snapshot.core).1 hcolumns
  show KeyColumns.Sound catalog
    ((c.searchGroups w schedule snapshot.core (groupsOf w snapshot) query).result (columns, c.board)).2.1
  rw [result_searchGroups]
  rcases hr : (Gathering.gather snapshot.core schedule
    ((groupsOf w snapshot).map (c.runGroup w query))).result (columns, c.board) with ⟨_ | _, t⟩
  all_goals
    rw [hr] at hkept
    exact hkept

/-- Any search through the caches leaves them sound. -/
theorem Caches.search_keeps :
    Act.Keeps (Caches.Sound catalog) (Caches.search w schedule snapshot query c) := by
  intro caches hcaches
  exact ⟨c.search_keeps w query schedule hlists _ hcaches.columns, hcaches.keySets⟩

end Searches

/-! ### The parts of a call -/

namespace CallStore

variable [PatternEngines] {catalog : Catalog}

/-- The caches are sound. What schedules there are does not matter. -/
def Sound (catalog : Catalog) (s : CallStore) : Prop := s.caches.Sound catalog

theorem keeps_nextSchedule : Act.Keeps (Sound catalog) nextSchedule := fun _ hs => hs

theorem keeps_onCaches {α : Type} {a : Act Caches α} (h : Act.Keeps (Caches.Sound catalog) a) :
    Act.Keeps (Sound catalog) (onCaches a) := fun s hs => h s.caches hs

/-- A computation that gets the next schedule and then works on the caches. -/
theorem comes_onCaches {α : Type} {good : α → Prop} {bad : Failure → Prop}
    {a : Schedule → Act Caches α} (h : ∀ schedule, (a schedule).Comes (Caches.Sound catalog) good bad) :
    (nextSchedule >>= fun schedule => onCaches (a schedule)).Comes (Sound catalog) good bad :=
  fun s hs => h (s.schedules.headD []) s.caches hs

end CallStore

theorem RelationalExpr.evaluate_keeps {σ : Type} {inv : σ → Prop}
    {collect : String → Query → String → Act σ KeyBits}
    (h : ∀ core query field, Act.Keeps inv (collect core query field)) (e : RelationalExpr) :
    ∀ restriction, Act.Keeps inv (e.evaluate collect restriction) := by
  induction e with
  | leaf core query field =>
    intro restriction
    exact (h _ _ _).bind fun _ => Act.keeps_pure _
  | and first second ihf ihs =>
    intro restriction
    exact (ihf _).bind fun _ => (ihs _).bind fun _ => Act.keeps_pure _
  | or first second ihf ihs =>
    intro restriction
    exact (ihf _).bind fun _ => (ihs _).bind fun _ => Act.keeps_pure _
  | not inner ih =>
    intro restriction
    exact (ih _).bind fun _ => Act.keeps_pure _

namespace Call

variable {catalog : Catalog} (c : Call)

/-- The segments of all snapshots of the call are in the catalog. -/
def Lists (catalog : Catalog) : Prop :=
  ∀ name snapshot, c.snapshots.find? name = some snapshot →
    ∀ placed ∈ snapshot.segments, catalog.Lists placed.segment

variable {c} (h : c.Lists catalog)
include h

theorem Lists.snapshot {name : String} {snapshot : Snapshot} (hs : c.snapshot name = .ok snapshot) :
    ∀ placed ∈ snapshot.segments, catalog.Lists placed.segment := by
  rw [Call.snapshot] at hs
  split at hs
  · rename_i s hfind
    obtain rfl : s = snapshot := Except.ok.inj hs
    exact h name s hfind
  · exact absurd hs (by simp)

variable [PatternEngines]

theorem search_keeps {B L P F : Type} (core : String) (query : Query) (collector : Collector B L P F) :
    Act.Keeps (CallStore.Sound catalog) (c.search core query collector) := by
  rw [Call.search]
  rcases hs : c.snapshot core with failure | snapshot
  · exact Act.keeps_ofExcept _
  · exact CallStore.keeps_nextSchedule.bind fun schedule =>
      CallStore.keeps_onCaches (Caches.search_keeps _ _ _ schedule (h.snapshot hs))

theorem collectKeys_keeps (core : String) (query : Query) (field : String) :
    Act.Keeps (CallStore.Sound catalog) (c.collectKeys core query field) := by
  rw [Call.collectKeys]
  rcases hs : c.snapshot core with failure | snapshot
  · exact Act.keeps_ofExcept _
  · exact CallStore.keeps_nextSchedule.bind fun schedule => CallStore.keeps_onCaches
      (Caches.comes_collectKeys _ schedule (h.snapshot hs) query field).keeps

theorem uniteSide_keeps (core : String) (query : Query) (partner : String) :
    Act.Keeps (CallStore.Sound catalog) (c.uniteSide core query partner) := by
  rw [uniteSide]
  split
  · exact (Act.keeps_ofExcept _).bind fun _ =>
      (collectKeys_keeps h _ _ _).bind fun _ => Act.keeps_pure _
  · exact (Act.keeps_ofExcept _).bind fun _ => (Act.keeps_ofExcept _).bind fun _ =>
      (collectKeys_keeps h _ _ _).bind fun _ => Act.keeps_pure _

theorem requireUnite_keeps (constraints : Constraints) (u : Unite) :
    Act.Keeps (CallStore.Sound catalog) (c.requireUnite constraints u) := by
  refine (uniteSide_keeps h _ _ _).bind fun ⟨fieldA, _⟩ => (uniteSide_keeps h _ _ _).bind
    fun ⟨fieldB, _⟩ => ?_
  show Act.Keeps _ (if fieldA = fieldB then _ else _)
  split
  · exact Act.keeps_pure _
  · exact Act.keeps_ofExcept _

theorem requireCore_keeps (constraints : Constraints) (name : String) (core : CoreQuery) :
    Act.Keeps (CallStore.Sound catalog) (c.requireCore constraints name core) := by
  refine (Act.keeps_ofExcept _).bind fun field => (Act.keeps_ofExcept _).bind fun ownField => ?_
  refine Act.Keeps.bind (Act.Keeps.foldlM (fun filter _ all =>
    (collectKeys_keeps h _ _ _).bind fun _ => Act.keeps_pure _) _) fun all => ?_
  refine Act.Keeps.bind (Act.Keeps.foldlM (fun exclude _ all =>
    (collectKeys_keeps h _ _ _).bind fun _ => Act.keeps_pure _) _) fun all => ?_
  split
  · split
    · exact Act.keeps_pure _
    · exact (collectKeys_keeps h _ _ _).bind fun _ => Act.keeps_pure _
  · exact Act.keeps_pure _

theorem requireRelational_keeps (constraints : Constraints) (filter : RelationalFilter) :
    Act.Keeps (CallStore.Sound catalog) (c.requireRelational constraints filter) :=
  (RelationalExpr.evaluate_keeps (collectKeys_keeps h) _ _).bind fun _ => Act.keeps_pure _

theorem relatedClause_keeps (core : String) (f : SortField) :
    Act.Keeps (CallStore.Sound catalog) (c.relatedClause core f) :=
  (Act.keeps_ofExcept _).bind fun _ => (search_keeps h _ _ _).bind fun _ =>
    (Act.keeps_ofExcept _).bind fun _ => (Act.keeps_ofExcept _).bind fun _ => Act.keeps_ofExcept _

theorem rankSource_keeps (core : String) (query : Query) :
    Act.Keeps (CallStore.Sound catalog) (c.rankSource core query) :=
  (Act.keeps_ofExcept _).bind fun _ => (search_keeps h _ _ _).bind fun _ =>
    (Act.keeps_ofExcept _).bind fun _ => Act.keeps_pure _

theorem mainSearch_keeps {B L P F : Type} (query : Query) (page : Collector B L P F)
    (pageOf : F → List Hit × Option Nat) (ranks : List RankSource) (fields : List String) :
    Act.Keeps (CallStore.Sound catalog) (c.mainSearch query page pageOf ranks fields) :=
  (search_keeps h _ _ _).bind fun _ => Act.keeps_pure _

theorem pageSearch_keeps (query : Query) (clauses : List SortClause) (ranks : List RankSource)
    (fields : List String) :
    Act.Keeps (CallStore.Sound catalog) (c.pageSearch query clauses ranks fields) := by
  rw [pageSearch]
  split
  · exact mainSearch_keeps h _ _ _ _ _
  · split
    · exact mainSearch_keeps h _ _ _ _ _
    · exact mainSearch_keeps h _ _ _ _ _

theorem relatedFacets_keeps (name : String) (core : CoreQuery) (main : MainResult) :
    Act.Keeps (CallStore.Sound catalog) (c.relatedFacets name core main) :=
  (Act.keeps_ofExcept _).bind fun _ => (Act.keeps_ofExcept _).bind fun _ => search_keeps h _ _ _

end Call

/-! ### Calls that read a clock -/

namespace CallM

variable {τ α β ι : Type}

/-- A call whose clock has a state, as a computation on the state of the call and that of the
clock. -/
def toAct (x : CallM (StateM τ) α) : Act (CallState × τ) α :=
  Act.ofUpdate fun s => ((x s.1 s.2).1.1, ((x s.1 s.2).1.2, (x s.1 s.2).2))

theorem toAct_pure (x : α) : toAct (pure x : CallM (StateM τ) α) = pure x := rfl

theorem toAct_bind (x : CallM (StateM τ) α) (f : α → CallM (StateM τ) β) :
    toAct (x >>= f) = toAct x >>= fun a => toAct (f a) := by
  refine Act.ext_result fun s => ?_
  rw [Act.result_bind, toAct, Act.result_ofUpdate, toAct, Act.result_ofUpdate]
  let next : CallState → τ → (Except Failure β × CallState) × τ :=
    (ExceptT.bindCont f (x s.1 s.2).1.1 : StateT CallState (StateM τ) (Except Failure β))
  have hbind : (x >>= f) s.1 s.2 = next (x s.1 s.2).1.2 (x s.1 s.2).2 := rfl
  rw [hbind]
  simp only [next]
  rcases x s.1 s.2 with ⟨⟨failure | a, state⟩, t⟩ <;> rfl

theorem toAct_foldlM (f : α → ι → CallM (StateM τ) α) (items : List ι) (x : α) :
    toAct (items.foldlM f x) = items.foldlM (fun x item => toAct (f x item)) x := by
  induction items generalizing x with
  | nil => rfl
  | cons item items ih => simp only [List.foldlM_cons, toAct_bind, ih]

theorem toAct_mapM (f : ι → CallM (StateM τ) α) (items : List ι) :
    toAct (items.mapM f) = items.mapM fun item => toAct (f item) := by
  induction items with
  | nil => rfl
  | cons item items ih => simp only [List.mapM_cons, toAct_bind, ih, toAct_pure]

theorem result_toAct_clock (clock : StateM τ Nat) (s : CallState × τ) :
    (toAct (liftM clock : CallM (StateM τ) Nat)).result s =
      (.ok (clock s.2).1, (s.1, (clock s.2).2)) := rfl

theorem result_toAct_ofAct (a : Act CallStore α) (s : CallState × τ) :
    (toAct (ofAct a : CallM (StateM τ) α)).result s =
      ((a.result s.1.toCallStore).1, (⟨(a.result s.1.toCallStore).2, s.1.timings⟩, s.2)) := rfl

/-- **The time does not show.** A phase does to the caches what its searches do. -/
theorem result_timed (c : Call) (clock : StateM τ Nat) (phase core : String) (a : Act CallStore α)
    (s : CallState × τ) :
    ∃ timings t, (toAct (c.timed clock phase core a)).result s =
      ((a.result s.1.toCallStore).1, (⟨(a.result s.1.toCallStore).2, timings⟩, t)) := by
  rw [Call.timed]
  split
  · rw [toAct_bind, Act.result_bind_of_ok (result_toAct_clock clock s), toAct_bind, Act.result_bind,
      result_toAct_ofAct]
    rcases a.result s.1.toCallStore with ⟨failure | x, store⟩
    · exact ⟨_, _, rfl⟩
    · exact ⟨s.1.timings ++ [⟨phase, core, (clock (clock s.2).2).1 - (clock s.2).1⟩],
        (clock (clock s.2).2).2, rfl⟩
  · exact ⟨_, _, rfl⟩

/-- What a phase comes to, and what it does to the caches, is what its searches come to and do. -/
theorem ends_timed {c : Call} {clock : StateM τ Nat} {phase core : String} {a : Act CallStore α}
    {good : α → CallStore → Prop} {bad : CallStore → Prop} {s : CallState × τ}
    (h : a.Ends s.1.toCallStore good bad) :
    (toAct (c.timed clock phase core a)).Ends s (fun x t => good x t.1.toCallStore)
      fun t => bad t.1.toCallStore := by
  obtain ⟨timings, t, hr⟩ := result_timed c clock phase core a s
  rw [Act.Ends, hr]
  rcases ha : a.result s.1.toCallStore with ⟨failure | x, store⟩
  · exact h.of_error ha
  · exact h.of_ok ha

theorem comes_timed {inv : CallStore → Prop} {good : α → Prop} {bad : Failure → Prop}
    {a : Act CallStore α}
    (h : a.Comes inv good bad) (c : Call) (clock : StateM τ Nat) (phase core : String) :
    (toAct (c.timed clock phase core a)).Comes (fun s => inv s.1.toCallStore) good bad := by
  intro s hs
  obtain ⟨timings, t, hr⟩ := result_timed c clock phase core a s
  rw [hr]
  exact h s.1.toCallStore hs

theorem timed_keeps {inv : CallStore → Prop} {a : Act CallStore α} (h : Act.Keeps inv a) (c : Call)
    (clock : StateM τ Nat) (phase core : String) :
    Act.Keeps (fun s => inv s.1.toCallStore) (toAct (c.timed clock phase core a)) := by
  intro s hs
  obtain ⟨timings, t, hr⟩ := result_timed c clock phase core a s
  rw [hr]
  exact h s.1.toCallStore hs

end CallM

/-! ### The phases of a call -/

namespace Call

variable [PatternEngines]

section Phases

variable {m : Type → Type} [Monad m] [LawfulMonad m] (c : Call) (clock : m Nat)

/-- The demands of the relational filter, if there is one. -/
def relationalPhase : CallM m Constraints :=
  match c.request.relationalFilter with
  | some filter => c.timed clock "relational_filter" c.target (c.requireRelational .empty filter)
  | none => pure .empty

/-- The constraints, if other cores are involved. -/
def constraintsPhase : CallM m Constraints :=
  if c.isFederated then c.constraints clock else pure .empty

/-- The fields to hand on, if other cores are involved. -/
def fieldsPhase : CallM m (List String) :=
  if c.isFederated then CallM.ofExcept c.handedFields else pure []

/-- The facets of other cores, if these are involved. -/
def facetsPhase (main : MainResult) : CallM m (List (String × List Facet)) :=
  if c.isFederated then c.allRelatedFacets clock main else pure []

/-- The response, from what the phases came to. -/
def answer (main : MainResult) (related : List (String × List Facet)) (hits : List PageHit)
    (timings : List PhaseTime) : Response where
  totalHits := main.total
  hits := hits
  facets := .ofList ((if (c.request.core c.target).facets.isEmpty then []
    else [(c.target, main.facets)]) ++ related)
  exportedKeys := c.request.exportKey.bind fun field => main.keys.lookup field
  timings := timings

theorem constraints_eq :
    c.constraints clock = c.relationalPhase clock >>= fun all =>
      c.request.unites.foldlM (fun all u =>
        c.timed clock "unite" c.target (c.requireUnite all u)) all >>= fun all =>
      c.request.otherCores.foldlM (fun all core =>
        c.timed clock "core_filter" core.1 (c.requireCore all core.1 core.2)) all := by
  rw [Call.constraints, relationalPhase]
  cases c.request.relationalFilter with
  | some filter => rfl
  | none => rw [pure_bind]

theorem respond_eq :
    c.respond clock = c.constraintsPhase clock >>= fun constraints =>
      c.fieldsPhase >>= fun fields =>
      c.sortClauses clock >>= fun clauses =>
      c.rankSources clock >>= fun ranks =>
      c.timed clock "main" c.target (c.pageSearch
        (constraints.narrow (c.request.core c.target).fullQuery) clauses ranks fields) >>= fun main =>
      c.facetsPhase clock main >>= fun related =>
      CallM.ofExcept (c.page main.hits) >>= fun hits =>
      get >>= fun state => pure (c.answer main related hits state.timings) := by
  rw [Call.respond, constraintsPhase, fieldsPhase]
  cases hfederated : c.isFederated with
  | true =>
    simp only [facetsPhase, hfederated]
    rfl
  | false =>
    simp only [facetsPhase, hfederated, Bool.false_eq_true, if_false, pure_bind]
    rfl

end Phases

section Keeps

variable {τ : Type} {catalog : Catalog} {c : Call} (h : c.Lists catalog) (clock : StateM τ Nat)
include h

theorem constraints_keeps :
    Act.Keeps (fun s => s.1.Sound catalog) (CallM.toAct (c.constraints clock)) := by
  rw [constraints_eq]
  simp only [CallM.toAct_bind, CallM.toAct_foldlM]
  refine Act.Keeps.bind ?_ fun all => Act.Keeps.bind ?_ fun all => ?_
  · rw [relationalPhase]
    split
    · exact CallM.timed_keeps (requireRelational_keeps h _ _) _ _ _ _
    · exact Act.keeps_pure _
  · exact Act.Keeps.foldlM (fun u _ all => CallM.timed_keeps (requireUnite_keeps h _ _) _ _ _ _) _
  · exact Act.Keeps.foldlM (fun core _ all => CallM.timed_keeps (requireCore_keeps h _ _ _) _ _ _ _) _

theorem constraintsPhase_keeps :
    Act.Keeps (fun s => s.1.Sound catalog) (CallM.toAct (c.constraintsPhase clock)) := by
  rw [constraintsPhase]
  split
  · exact constraints_keeps h clock
  · exact Act.keeps_pure _

theorem sortClauses_keeps :
    Act.Keeps (fun s => s.1.Sound catalog) (CallM.toAct (c.sortClauses clock)) := by
  rw [Call.sortClauses, CallM.toAct_mapM]
  refine Act.Keeps.mapM fun f _ => ?_
  split
  · split
    · exact Act.keeps_ofExcept _
    · exact CallM.timed_keeps (relatedClause_keeps h _ _) _ _ _ _
  · exact Act.keeps_ofExcept _

theorem rankSources_keeps :
    Act.Keeps (fun s => s.1.Sound catalog) (CallM.toAct (c.rankSources clock)) := by
  rw [Call.rankSources, CallM.toAct_mapM]
  exact Act.Keeps.mapM fun e _ => CallM.timed_keeps (rankSource_keeps h _ _) _ _ _ _

theorem facetsPhase_keeps (main : MainResult) :
    Act.Keeps (fun s => s.1.Sound catalog) (CallM.toAct (c.facetsPhase clock main)) := by
  rw [facetsPhase]
  split
  · rw [Call.allRelatedFacets, CallM.toAct_mapM]
    refine Act.Keeps.mapM fun e _ => ?_
    rw [CallM.toAct_bind]
    exact (CallM.timed_keeps (relatedFacets_keeps h _ _ _) _ _ _ _).bind fun _ => Act.keeps_pure _
  · exact Act.keeps_pure _

/-- **A call** leaves sound caches sound, whether it succeeds or not. -/
theorem respond_keeps :
    Act.Keeps (fun s => s.1.Sound catalog) (CallM.toAct (c.respond clock)) := by
  rw [respond_eq]
  simp only [CallM.toAct_bind]
  refine (constraintsPhase_keeps h clock).bind fun constraints => Act.Keeps.bind ?_ fun fields => ?_
  · rw [fieldsPhase]
    split
    · exact Act.keeps_ofExcept _
    · exact Act.keeps_pure _
  refine (sortClauses_keeps h clock).bind fun clauses => (rankSources_keeps h clock).bind fun ranks => ?_
  refine (CallM.timed_keeps (pageSearch_keeps h _ _ _ _) _ _ _ _).bind fun main => ?_
  exact (facetsPhase_keeps h clock main).bind fun related => (Act.keeps_ofExcept _).bind
    fun hits => fun _ hs => hs

end Keeps

end Call

/-! ### The engine -/

theorem mem_placeFrom {placed : Placed} {segments : List Segment} {ord base : Nat}
    (h : placed ∈ placeFrom ord base segments) : placed.segment ∈ segments := by
  induction segments generalizing ord base with
  | nil => exact absurd h List.not_mem_nil
  | cons s segments ih =>
    rw [placeFrom] at h
    rcases List.mem_cons.mp h with rfl | h
    · exact List.mem_cons_self
    · exact List.mem_cons_of_mem _ (ih h)

theorem Snapshot.lists_ofCore {catalog : Catalog} {core : Core}
    (h : ∀ s ∈ core.segments, catalog.Lists s) :
    ∀ placed ∈ (Snapshot.ofCore core).segments, catalog.Lists placed.segment :=
  fun _ hmem => h _ (mem_placeFrom hmem)

namespace Engine

variable {catalog : Catalog} {e : Engine}

/-- The segments of all registered cores are in the catalog. -/
def Lists (catalog : Catalog) (e : Engine) : Prop :=
  ∀ name core, e.cores.find? name = some core → ∀ s ∈ core.segments, catalog.Lists s

/-- The snapshots are those of the registered cores. -/
theorem of_snapshots_eq_ok {names : List String} {snapshots : NameMap Snapshot}
    (h : e.snapshots names = .ok snapshots) {name : String} {snapshot : Snapshot}
    (hfind : snapshots.find? name = some snapshot) :
    ∃ core, e.cores.find? name = some core ∧ snapshot = Snapshot.ofCore core := by
  obtain ⟨entries, hentries, h⟩ := bind_eq_ok.mp h
  obtain rfl : NameMap.ofList entries = snapshots := Except.ok.inj h
  obtain ⟨other, -, hother⟩ := mem_of_mapM_eq_ok hentries (NameMap.mem_of_find?_ofList hfind)
  split at hother
  · rename_i core hcore
    obtain ⟨rfl, rfl⟩ := Prod.mk.inj (Except.ok.inj hother)
    exact ⟨core, hcore, rfl⟩
  · exact absurd hother (by simp)

theorem of_call_eq_ok {held : Liveness} {r : Request} {c : Call} (h : e.call held r = .ok c) :
    c.request = r ∧ c.settings = e.settings ∧ e.snapshots r.referencedCores = .ok c.snapshots := by
  obtain ⟨-, -, h⟩ := bind_eq_ok.mp h
  obtain ⟨snapshots, hsnapshots, h⟩ := bind_eq_ok.mp h
  obtain rfl := Except.ok.inj h
  exact ⟨rfl, rfl, hsnapshots⟩

theorem Lists.call (h : e.Lists catalog) {held : Liveness} {r : Request} {c : Call}
    (hcall : e.call held r = .ok c) : c.Lists catalog := by
  intro name snapshot hfind
  obtain ⟨-, -, hsnapshots⟩ := of_call_eq_ok hcall
  obtain ⟨core, hcore, rfl⟩ := of_snapshots_eq_ok hsnapshots hfind
  exact Snapshot.lists_ofCore (h name core hcore)

variable [PatternEngines] {τ : Type} (clock : StateM τ Nat) (held : Liveness) (r : Request)
  (schedules : List Schedule)

theorem execute_of_call {c : Call} (hcall : e.call held r = .ok c) (t : τ) :
    e.execute clock held r schedules t =
      ((((CallM.toAct (c.respond clock)).result ({ caches := e.caches, schedules }, t)).1,
        { e with caches :=
          ((CallM.toAct (c.respond clock)).result ({ caches := e.caches, schedules }, t)).2.1.caches }),
        ((CallM.toAct (c.respond clock)).result ({ caches := e.caches, schedules }, t)).2.2) := by
  simp only [execute, hcall]
  rfl

theorem execute_of_call_error {failure : Failure} (hcall : e.call held r = .error failure) (t : τ) :
    e.execute clock held r schedules t = ((.error failure, e), t) := by
  simp only [execute, hcall]
  rfl

/-- **Answering a request** leaves sound caches sound. -/
theorem execute_sound (h : e.Lists catalog) (hsound : e.caches.Sound catalog) (t : τ) :
    (e.execute clock held r schedules t).1.2.caches.Sound catalog := by
  rcases hcall : e.call held r with failure | c
  · rw [execute_of_call_error clock held r schedules hcall]
    exact hsound
  · rw [execute_of_call clock held r schedules hcall]
    exact Call.respond_keeps (h.call hcall) clock _ hsound

end Engine

end FederatedSearch
