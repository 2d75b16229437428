import FederatedSearch.Proofs.Act.Mirrors
import FederatedSearch.Proofs.Collector.Modest
import FederatedSearch.Proofs.Search.Ensured

/-!
# Collectors whose groups have nothing to share

Most collectors have an empty board and take no steps on it: what a group does depends on its segments and on
nothing else. Then it makes no difference how the groups of a search are interleaved, except for which
failure it is that the search reports if several groups fail.

## Main definitions

* `Process.Quiet` — a process that takes no steps
* `Collector.Quiet` — a collector all of whose parts are of this kind
* `Collector.outcome` — what a search comes to when its groups run in turn and nothing is remembered

## Main results

* `Collector.Quiet.agrees_searchGroups` — searches on any two schedules agree
* `Collector.Quiet.agrees_search` — any search agrees with the outcome
-/

namespace FederatedSearch

/-! ### Processes that take no steps -/

namespace Process

variable {α β ι σ : Type} {p : Process σ α}

/-- The process takes no steps. -/
def Quiet (p : Process σ α) : Prop := ∃ r, p = ofExcept r

theorem quiet_pure (x : α) : (pure x : Process σ α).Quiet := ⟨.ok x, rfl⟩

theorem quiet_ofExcept (r : Except Failure α) : (ofExcept r : Process σ α).Quiet := ⟨r, rfl⟩

theorem Quiet.bind (h : p.Quiet) {f : α → Process σ β} (hf : ∀ x, (f x).Quiet) : (p >>= f).Quiet := by
  obtain ⟨failure | x, rfl⟩ := h
  · exact ⟨.error failure, rfl⟩
  · exact hf x

theorem Quiet.foldlM {step : α → ι → Process σ α} (h : ∀ x item, (step x item).Quiet) (items : List ι)
    (x : α) : (items.foldlM step x).Quiet := by
  induction items generalizing x with
  | nil => exact quiet_pure x
  | cons item items ih =>
    rw [List.foldlM_cons]
    exact (h x item).bind ih

end Process

namespace Collector

open Process

variable {L P F : Type} {c : Collector Unit L P F}

/-- None of what the collector does takes a step. -/
structure Quiet (c : Collector Unit L P F) : Prop where
  start : c.start.Quiet
  bind : ∀ placed l, (c.bind placed l).Quiet
  collect : ∀ bound hit l, (c.collect bound hit l).Quiet
  endSegment : ∀ bound l, (c.endSegment bound l).Quiet
  finish : ∀ l, (c.finish l).Quiet

/-! ### The collectors of the library -/

theorem quiet_counting : counting.Quiet where
  start := quiet_pure _
  bind _ _ := quiet_pure _
  collect _ _ _ := quiet_pure _
  endSegment _ _ := quiet_pure _
  finish _ := quiet_pure _

theorem quiet_mostRelevant (limit : Nat) : (mostRelevant limit).Quiet where
  start := quiet_pure _
  bind _ _ := quiet_pure _
  collect _ _ _ := quiet_pure _
  endSegment _ _ := quiet_pure _
  finish _ := quiet_pure _

theorem quiet_faceting (requests : List FacetRequest) : (faceting requests).Quiet where
  start := quiet_pure _
  bind _ _ := quiet_pure _
  collect bound _ _ := by
    rcases hplaced : bound.placed with _ | placed
    · simp only [faceting, hplaced]
      exact quiet_pure _
    · simp only [faceting, hplaced]
      exact quiet_ofExcept _
  endSegment _ _ := quiet_pure _
  finish _ := quiet_pure _

theorem quiet_rankScores (field : String) : (rankScores field).Quiet where
  start := quiet_pure _
  bind _ _ := quiet_pure _
  collect bound hit _ := by
    by_cases hkey : bound.key field hit.doc = noKey
    · simp only [rankScores, hkey, if_true]
      exact quiet_pure _
    · simp only [rankScores, hkey, if_false]
      exact quiet_ofExcept _
  endSegment _ _ := quiet_pure _
  finish _ := quiet_pure _

theorem quiet_firstDocs (field : String) : (firstDocs field).Quiet where
  start := quiet_pure _
  bind _ _ := quiet_pure _
  collect bound hit _ := by
    by_cases hkey : bound.key field hit.doc = noKey
    · simp only [firstDocs, hkey, if_true]
      exact quiet_pure _
    · simp only [firstDocs, hkey, if_false]
      exact quiet_ofExcept _
  endSegment _ _ := quiet_pure _
  finish _ := quiet_pure _

/-! ### Searches -/

variable [PatternEngines]

section Quiet

variable (h : c.Quiet) {query : Query}
include h

theorem Quiet.readSegment (l : L) (placed : Placed) : (c.readSegment query l placed).Quiet := by
  refine (h.bind placed l).bind fun binding => (quiet_ofExcept _).bind fun _ => ?_
  cases binding.visit with
  | skip => exact quiet_pure _
  | docs =>
    exact (quiet_ofExcept _).bind fun hits =>
      (Quiet.foldlM (fun l hit => h.collect _ hit l) hits binding.state).bind fun l => h.endSegment _ l

theorem Quiet.readGroup (group : List Placed) : (c.readGroup query group).Quiet :=
  h.start.bind fun l => (Quiet.foldlM h.readSegment group l).bind h.finish

variable {core : String} {groups : List (List Placed)}

/-- Searches without a memory on any two schedules. -/
theorem Quiet.agrees_readScheduled (schedule schedule' : Schedule) :
    Agrees Eq ((c.readScheduled schedule core groups query).result ()).1
      ((c.readScheduled schedule' core groups query).result ()).1 := by
  have hgroups : ∀ group, (c.readGroup query group).Quiet := h.readGroup
  choose f hf using hgroups
  have hgather : ∀ schedule : Schedule,
      Agrees Eq ((Gathering.gather core schedule (groups.map (c.readGroup query))).result ()).1
        (groups.mapM f) := by
    intro schedule
    rw [funext hf]
    exact Gathering.agrees_gather_ofExcept f core schedule ()
  have hboth := (hgather schedule).trans_eq (hgather schedule').symm_eq
  rw [result_readScheduled, result_readScheduled]
  generalize (Gathering.gather core schedule (groups.map (c.readGroup query))).result () = a at hboth ⊢
  generalize (Gathering.gather core schedule' (groups.map (c.readGroup query))).result () = b at hboth ⊢
  obtain ⟨r, t⟩ := a
  obtain ⟨r', t'⟩ := b
  cases hboth with
  | error failure failure' => exact .error failure failure'
  | @ok partials _ hsame =>
    subst hsame
    show Agrees Eq (c.merge t partials) (c.merge t' partials)
    rcases c.merge t' partials with failure | x
    · exact .error failure failure
    · exact .ok rfl

/-- **Searches on any two schedules** agree, whatever columns are remembered. -/
theorem Quiet.agrees_searchGroups {view : L → List String} (hmodest : c.Modest view) {catalog : Catalog}
    (w w' : Workshop) (hlists : ∀ group ∈ groups, ∀ placed ∈ group, catalog.Lists placed.segment)
    {columns columns' : KeyColumns} (hcolumns : columns.Sound catalog)
    (hcolumns' : columns'.Sound catalog) (schedule schedule' : Schedule) :
    Agrees Eq ((c.searchGroups w schedule core groups query).result (columns, ())).1
      ((c.searchGroups w' schedule' core groups query).result (columns', ())).1 := by
  have hread : ∀ (w : Workshop) (schedule : Schedule) {columns : KeyColumns}, columns.Sound catalog →
      ∃ other, ((c.searchGroups w schedule core groups query).result (columns, ())).1 =
        ((c.readScheduled other core groups query).result ()).1 := fun w schedule columns hcolumns =>
    hmodest.exists_readScheduled w query hlists (s := (columns, ())) hcolumns schedule
  obtain ⟨other, hother⟩ := hread w schedule hcolumns
  obtain ⟨other', hother'⟩ := hread w' schedule' hcolumns'
  rw [hother, hother']
  exact h.agrees_readScheduled other other'

end Quiet

/-- What a search comes to when its groups run in turn and nothing is remembered. -/
def outcome {B : Type} (c : Collector B L P F) (w : Workshop) (snapshot : Snapshot) (query : Query) :
    Except Failure F :=
  ((c.search w [] snapshot query).result {}).1

/-- **Any search** agrees with the outcome. -/
theorem Quiet.agrees_search (h : c.Quiet) {view : L → List String} (hmodest : c.Modest view)
    {catalog : Catalog} (w : Workshop) {snapshot : Snapshot} {query : Query}
    (hlists : ∀ placed ∈ snapshot.segments, catalog.Lists placed.segment) {columns : KeyColumns}
    (hcolumns : columns.Sound catalog) (schedule : Schedule) :
    Agrees Eq ((c.search w schedule snapshot query).result columns).1 (c.outcome w snapshot query) := by
  refine h.agrees_searchGroups hmodest w w (fun group hgroup placed hmem => hlists placed ?_) hcolumns
    KeyColumns.sound_empty schedule []
  exact (sublist_of_mem_groupsOf hgroup).subset hmem

/-- The outcome with as many groups. -/
theorem Quiet.agrees_outcome (h : c.Quiet) {view : L → List String} (hmodest : c.Modest view)
    {catalog : Catalog} {w w' : Workshop} {snapshot : Snapshot} {query : Query}
    (hlists : ∀ placed ∈ snapshot.segments, catalog.Lists placed.segment)
    (hgroups : groupsOf w' snapshot = groupsOf w snapshot) :
    Agrees Eq (c.outcome w snapshot query) (c.outcome w' snapshot query) := by
  have houtcome : c.outcome w' snapshot query =
      ((c.searchGroups w' [] snapshot.core (groupsOf w snapshot) query).result ({}, ())).1 := by
    rw [← hgroups]
    rfl
  rw [houtcome]
  refine h.agrees_searchGroups hmodest w w' (fun group hgroup placed hmem => hlists placed ?_)
    KeyColumns.sound_empty KeyColumns.sound_empty [] []
  exact (sublist_of_mem_groupsOf hgroup).subset hmem

end Collector

end FederatedSearch
