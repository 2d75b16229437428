import FederatedSearch.Index.DocumentCore
import FederatedSearch.Proofs.Engine.Caches
import FederatedSearch.Proofs.Index.Search

/-!
# Sessions

A session is a program that uses the library: it changes document cores, holds on to snapshots and
lets go of them, collects join keys from the snapshots it holds, and has an engine answer requests
over all its cores, all with the same caches. A history is a list of such events in any order.

An identity that is given out is new. So at any time of a session there is a catalog of the segments
published so far (`Session.Recorded`) which only grows, and the caches are sound for it.

## Main definitions

* `Session`, `Session.Event`, `Session.step`, `Session.run`
* `Session.Recorded` — a catalog has all segments in use, and the caches are sound for it

## Main results

* `Session.Recorded.step` — one event
* `Session.exists_recorded` — every history
-/

namespace FederatedSearch

/-- What a program that uses the library has. -/
structure Session where
  source : IdentitySource := {}
  cores : List DocumentCore := []
  /-- The snapshots that the program holds. -/
  held : List Snapshot := []
  settings : Settings
  caches : Caches

namespace Session

/-- What can happen. Cores and snapshots are named by their positions; nothing happens if there is
none at the position. -/
inductive Event where
  | createCore (name : String)
  | addSegment (core : Nat) (docs : List Document)
  | delete (core : Nat) (id : String)
  | mergeSegments (core : Nat)
  | takeSnapshot (core : Nat)
  | releaseSnapshot (snapshot : Nat)
  /-- Collect the join keys of a query from a snapshot. -/
  | collectKeys (snapshot : Nat) (query : Query) (field : String) (concurrency : Nat)
    (schedule : Schedule)
  /-- Answer a request, by a clock that starts at a time. -/
  | execute (request : Request) (schedules : List Schedule) (clock : StateM Nat Nat) (now : Nat)

variable [PatternEngines] (s : Session)

/-- Before the first event. -/
def start (settings : Settings) : Session :=
  { settings, caches := .empty settings.cachedQueries }

/-- Whether some snapshot has the segment. -/
def isHeld : Liveness := fun id => s.held.any fun snapshot => snapshot.identities.contains id

/-- Whether some snapshot or some core has the segment. -/
def live : Liveness := fun id =>
  s.isHeld id || s.cores.any fun core => core.segments.any (·.identity = id)

/-- The engine over all cores. -/
def engine : Engine :=
  s.cores.foldl (fun e core => e.register core.publish) { settings := s.settings, caches := s.caches }

/-- What the call for a request begins with: the caches, the schedules of its searches and the time. -/
def beginning {τ : Type} (schedules : List Schedule) (now : τ) : CallState × τ :=
  ({ caches := s.caches, schedules }, now)

/-- Change a core. -/
def change (i : Nat) (f : DocumentCore → Minting DocumentCore) : Session :=
  match s.cores[i]? with
  | some core => { s with cores := s.cores.set i (f core s.source).1, source := (f core s.source).2 }
  | none => s

def step : Event → Session
  | .createCore name => { s with cores := s.cores ++ [{ name }] }
  | .addSegment i docs => s.change i (·.addSegment docs)
  | .delete i id => s.change i fun core => (·.1) <$> core.delete id
  | .mergeSegments i => s.change i (·.mergeSegments)
  | .takeSnapshot i =>
    match s.cores[i]? with
    | some core => { s with held := s.held ++ [.ofCore core.publish] }
    | none => s
  | .releaseSnapshot i => { s with held := s.held.eraseIdx i }
  | .collectKeys i query field concurrency schedule =>
    match s.held[i]? with
    | some snapshot =>
      { s with caches :=
          ((Caches.collectKeys ⟨concurrency, s.live⟩ schedule snapshot query field).result s.caches).2 }
    | none => s
  | .execute request schedules clock now =>
    { s with caches := (s.engine.execute clock s.isHeld request schedules now).1.2.caches }

/-- The session after a history. -/
def run (settings : Settings) (history : List Event) : Session := history.foldl step (start settings)

end Session

/-! ### New identities -/

namespace Catalog

/-- Every identity in the catalog has been given out. -/
def Covers (catalog : Catalog) (source : IdentitySource) : Prop :=
  ∀ id s, catalog id = some s → id.serial < source.next

variable {catalog : Catalog} {source : IdentitySource}

/-- A segment with a new identity can be put into the catalog. -/
theorem Covers.publish (h : catalog.Covers source) {s : Segment} (hs : s.identity = ⟨source.next⟩) :
    ∃ larger : Catalog, catalog.IsExtendedBy larger ∧ larger.Covers ⟨source.next + 1⟩ ∧
      larger.Lists s := by
  refine ⟨Function.update catalog s.identity (some s), fun id other hid => ?_, fun id other hid => ?_,
    Function.update_self _ _ _⟩
  · have hne : id ≠ s.identity := by
      rintro rfl
      have hlt := h _ _ hid
      rw [hs] at hlt
      exact Nat.lt_irrefl _ hlt
    rw [Function.update_of_ne hne]
    exact hid
  · by_cases heq : id = s.identity
    · rw [heq, hs]
      exact Nat.lt_succ_self _
    · rw [Function.update_of_ne heq] at hid
      exact Nat.lt_succ_of_lt (h id other hid)

end Catalog

/-- The segments are in some larger catalog, which has no more identities than were given out. -/
def Published (catalog : Catalog) (segments : List IndexedSegment) (source : IdentitySource) : Prop :=
  ∃ larger : Catalog, catalog.IsExtendedBy larger ∧ larger.Covers source ∧
    ∀ s ∈ segments, larger.Lists (.indexed s)

section Published

variable {catalog : Catalog} {source : IdentitySource} (h : catalog.Covers source)
include h

theorem published_deleteFrom (id : String) {s : IndexedSegment} (hs : catalog.Lists (.indexed s)) :
    Published catalog [(s.delete id source).1.1] (s.delete id source).2 := by
  rw [IndexedSegment.delete]
  split
  · exact ⟨catalog, .refl _, h, fun other hmem => List.mem_singleton.mp hmem ▸ hs⟩
  · obtain ⟨larger, hext, hcovers, hnew⟩ := h.publish
      (s := .indexed { s with identity := ⟨source.next⟩, deleted := _ }) rfl
    exact ⟨larger, hext, hcovers, fun other hmem => List.mem_singleton.mp hmem ▸ hnew⟩

theorem published_delete (id : String) {segments : List IndexedSegment}
    (hlists : ∀ s ∈ segments, catalog.Lists (.indexed s)) :
    Published catalog ((segments.mapM (·.delete id) source).1.map (·.1))
      (segments.mapM (·.delete id) source).2 := by
  induction segments generalizing catalog source with
  | nil => exact ⟨catalog, .refl _, h, nofun⟩
  | cons s segments ih =>
    obtain ⟨first, hfirst, hcovers, hs⟩ :=
      published_deleteFrom h id (hlists s List.mem_cons_self)
    obtain ⟨larger, hlarger, hcovers', hrest⟩ := ih hcovers fun other hmem =>
      hfirst.lists (hlists other (List.mem_cons_of_mem _ hmem))
    rw [List.mapM_cons]
    refine ⟨larger, hfirst.trans hlarger, hcovers', fun other hmem => ?_⟩
    rcases List.mem_cons.mp hmem with rfl | hmem
    · exact hlarger.lists (hs _ List.mem_cons_self)
    · exact hrest other hmem

variable {core : DocumentCore} (hlists : ∀ s ∈ core.segments, catalog.Lists (.indexed s))
include hlists

theorem published_addSegment (docs : List Document) :
    Published catalog (core.addSegment docs source).1.segments (core.addSegment docs source).2 := by
  obtain ⟨larger, hext, hcovers, hnew⟩ :=
    h.publish (s := .indexed (IndexedSegment.create core.name docs source).1) rfl
  refine ⟨larger, hext, hcovers, fun s hs => ?_⟩
  rcases List.mem_append.mp hs with hs | hs
  · exact hext.lists (hlists s hs)
  · exact List.mem_singleton.mp hs ▸ hnew

theorem published_mergeSegments :
    Published catalog (core.mergeSegments source).1.segments (core.mergeSegments source).2 := by
  rw [DocumentCore.mergeSegments]
  split
  · exact ⟨catalog, .refl _, h, hlists⟩
  · obtain ⟨larger, hext, hcovers, hnew⟩ := h.publish
      (s := .indexed (IndexedSegment.create core.name
        (core.segments.flatMap (·.liveDocuments)) source).1) rfl
    exact ⟨larger, hext, hcovers, fun s hs => List.mem_singleton.mp hs ▸ hnew⟩

end Published

/-! ### Every history -/

namespace Session

/-- The catalog has every segment that some core or some snapshot has, and it has no identity that
has not been given out. The caches are sound for it. -/
structure Recorded [PatternEngines] (catalog : Catalog) (s : Session) : Prop where
  covers : catalog.Covers s.source
  cores : ∀ core ∈ s.cores, ∀ segment ∈ core.segments, catalog.Lists (.indexed segment)
  held : ∀ snapshot ∈ s.held, ∀ placed ∈ snapshot.segments,
    catalog.Lists placed.segment ∧ ∃ segment, placed.segment = .indexed segment
  caches : s.caches.Sound catalog

variable {catalog : Catalog} {s : Session}

theorem recorded_start [PatternEngines] (settings : Settings) : (start settings).Recorded fun _ => none :=
  ⟨nofun, nofun, nofun, Caches.sound_empty _⟩

theorem lists_publish {core : DocumentCore}
    (h : ∀ segment ∈ core.segments, catalog.Lists (.indexed segment)) :
    ∀ segment ∈ core.publish.segments, catalog.Lists segment := by
  intro segment hmem
  obtain ⟨indexed, hindexed, rfl⟩ := List.mem_map.mp hmem
  exact h indexed hindexed

theorem engine_eq (s : Session) :
    s.engine = {
      settings := s.settings
      cores := s.cores.foldl (fun all core => all.insert core.name core.publish) .empty
      caches := s.caches } := by
  have hall : ∀ (cores : List DocumentCore) (e : Engine),
      cores.foldl (fun e core => e.register core.publish) e = { e with
        cores := cores.foldl (fun all core => all.insert core.name core.publish) e.cores } := by
    intro cores
    induction cores with
    | nil => exact fun _ => rfl
    | cons core cores ih => exact fun e => ih (e.register core.publish)
  exact hall s.cores _

theorem engine_caches (s : Session) : s.engine.caches = s.caches := by rw [engine_eq]

theorem engine_settings (s : Session) : s.engine.settings = s.settings := by rw [engine_eq]

theorem cores_engine_eq {s s' : Session} (h : s'.cores = s.cores) : s'.engine.cores = s.engine.cores := by
  rw [engine_eq, engine_eq, h]

/-- The engine has nothing but cores of the session. -/
theorem of_find?_engine {s : Session} {name : String} {core : Core}
    (h : s.engine.cores.find? name = some core) : ∃ own ∈ s.cores, core = own.publish := by
  have hall : ∀ (cores : List DocumentCore) (e : Engine),
      (cores.foldl (fun e core => e.register core.publish) e).cores.find? name = some core →
        e.cores.find? name = some core ∨ ∃ own ∈ cores, core = own.publish := by
    intro cores
    induction cores with
    | nil => exact fun e he => .inl he
    | cons own cores ih =>
      intro e he
      rcases ih _ he with hfind | ⟨other, hmem, heq⟩
      · simp only [Engine.register, NameMap.find?_insert] at hfind
        split at hfind
        · exact .inr ⟨own, List.mem_cons_self, (Option.some.inj hfind).symm⟩
        · exact .inl hfind
      · exact .inr ⟨other, List.mem_cons_of_mem _ hmem, heq⟩
  rcases hall s.cores _ h with hfind | hown
  · exact absurd hfind (by simp)
  · exact hown

variable [PatternEngines]

theorem Recorded.engine (h : s.Recorded catalog) : s.engine.Lists catalog := by
  intro name core hfind
  obtain ⟨own, hmem, rfl⟩ := of_find?_engine hfind
  exact lists_publish (h.cores own hmem)

theorem Recorded.change (h : s.Recorded catalog) (i : Nat) {f : DocumentCore → Minting DocumentCore}
    (hf : ∀ core ∈ s.cores, Published catalog (f core s.source).1.segments (f core s.source).2) :
    ∃ larger, (s.change i f).Recorded larger := by
  rw [Session.change]
  split
  · rename_i core hcore
    obtain ⟨larger, hext, hcovers, hnew⟩ := hf core (List.mem_of_getElem? hcore)
    refine ⟨larger, hcovers, fun other hother segment hs => ?_, fun snapshot hsnap placed hp => ?_,
      h.caches.extend hext⟩
    · rcases List.mem_or_eq_of_mem_set hother with hother | rfl
      · exact hext.lists (h.cores other hother segment hs)
      · exact hnew segment hs
    · exact ⟨hext.lists (h.held snapshot hsnap placed hp).1, (h.held snapshot hsnap placed hp).2⟩
  · exact ⟨catalog, h⟩

theorem settings_step (s : Session) (e : Event) : (s.step e).settings = s.settings := by
  have hchange : ∀ i f, (s.change i f).settings = s.settings := by
    intro i f
    rw [change]
    split <;> rfl
  cases e with
  | createCore | releaseSnapshot | execute => rfl
  | addSegment | delete | mergeSegments => exact hchange _ _
  | takeSnapshot i =>
    rw [Session.step]
    split <;> rfl
  | collectKeys i query field concurrency schedule =>
    rw [Session.step]
    split <;> rfl

theorem settings_run (settings : Settings) (history : List Event) :
    (run settings history).settings = settings := by
  induction history using List.reverseRecOn with
  | nil => rfl
  | append_singleton history e ih =>
    rw [run, List.foldl_append]
    exact (settings_step _ e).trans ih

theorem engine_settings_run (settings : Settings) (history : List Event) :
    (run settings history).engine.settings = settings := by
  rw [engine_settings, settings_run]

/-- Answering a request leaves the cores as they are. -/
theorem cores_run_execute (settings : Settings) (history : List Event) (r : Request)
    (schedules : List Schedule) (clock : StateM Nat Nat) (now : Nat) :
    (run settings (history ++ [.execute r schedules clock now])).cores =
    (run settings history).cores := by
  rw [run, List.foldl_append]
  rfl

/-- **One event.** Where it publishes segments the catalog grows, and the caches stay sound. -/
theorem Recorded.step (h : s.Recorded catalog) (e : Event) : ∃ larger, (s.step e).Recorded larger := by
  cases e with
  | createCore name =>
    refine ⟨catalog, h.covers, fun core hcore segment hs => ?_, h.held, h.caches⟩
    rcases List.mem_append.mp hcore with hcore | hcore
    · exact h.cores core hcore segment hs
    · obtain rfl := List.mem_singleton.mp hcore
      exact absurd hs List.not_mem_nil
  | addSegment i docs =>
    exact h.change i fun core hcore => published_addSegment h.covers (h.cores core hcore) docs
  | delete i id =>
    exact h.change i fun core hcore => published_delete h.covers id (h.cores core hcore)
  | mergeSegments i =>
    exact h.change i fun core hcore => published_mergeSegments h.covers (h.cores core hcore)
  | takeSnapshot i =>
    rw [Session.step]
    split
    · rename_i core hcore
      refine ⟨catalog, h.covers, h.cores, fun snapshot hsnap placed hp => ?_, h.caches⟩
      rcases List.mem_append.mp hsnap with hsnap | hsnap
      · exact h.held snapshot hsnap placed hp
      · obtain rfl := List.mem_singleton.mp hsnap
        obtain ⟨indexed, hindexed, heq⟩ := List.mem_map.mp (mem_placeFrom hp)
        rw [← heq]
        exact ⟨h.cores core (List.mem_of_getElem? hcore) indexed hindexed, indexed, rfl⟩
    · exact ⟨catalog, h⟩
  | releaseSnapshot i =>
    exact ⟨catalog, h.covers, h.cores,
      fun snapshot hsnap => h.held snapshot (List.mem_of_mem_eraseIdx hsnap), h.caches⟩
  | collectKeys i query field concurrency schedule =>
    rw [Session.step]
    split
    · rename_i snapshot hsnap
      refine ⟨catalog, h.covers, h.cores, h.held, ?_⟩
      have hlists : ∀ placed ∈ snapshot.segments, catalog.Lists placed.segment :=
        fun placed hp => (h.held snapshot (List.mem_of_getElem? hsnap) placed hp).1
      exact (Caches.comes_collectKeys _ schedule hlists query field).keeps _ h.caches
    · exact ⟨catalog, h⟩
  | execute request schedules clock now =>
    refine ⟨catalog, h.covers, h.cores, h.held, ?_⟩
    exact Engine.execute_sound clock s.isHeld request schedules h.engine (s.engine_caches ▸ h.caches) now

/-- **Every history** leaves a session whose caches are sound. -/
theorem exists_recorded (settings : Settings) (history : List Event) :
    ∃ catalog, (run settings history).Recorded catalog := by
  induction history using List.reverseRecOn with
  | nil => exact ⟨_, recorded_start settings⟩
  | append_singleton history e ih =>
    obtain ⟨catalog, h⟩ := ih
    rw [run, List.foldl_append]
    exact h.step e

end Session

end FederatedSearch
