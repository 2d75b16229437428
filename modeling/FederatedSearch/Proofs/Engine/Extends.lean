import FederatedSearch.Proofs.Engine.Unseen
import FederatedSearch.Proofs.Request.Decorates

/-!
# Calls that ask for more

A request can be decorated with more facets, more sort fields, more rank queries and an export key.
This changes a good deal of its call: cores have to be listed and linked for the decorations, so that
there are more snapshots, more cores to go through for constraints, and perhaps more than one core
where there was only one. But whatever a phase looks up for the request itself it finds in the same
place. So a success stays the same success, and the constraints are alike.

## Main definitions

* `Call.Extends` — a call for a request with decorations
* `Demand.Matched` — demands that come to the same
* `Call.Resolves` — the constraints find all that they look up

## Main results

* `Call.Extends.clauseOf`, `Call.Extends.rankOf` — sort clauses and scores are the same
* `Constraints.Reflects.alike` — constraints are known from the demands
* `Call.Extends.alike_constraints` — the constraints of both calls
-/

namespace FederatedSearch

/-! ### Successes that stay -/

theorem Request.Decorates.sideFields {r' r : Request} (h : r'.Decorates r) {core partner : String}
    (hfields : r.sideFields core partner = .ok fields) :
    r'.sideFields core partner = .ok fields := by
  rw [Request.sideFields] at hfields ⊢
  rw [h.resultsFrom]
  split at hfields
  · obtain ⟨field, hfield, heq⟩ := bind_eq_ok.mp hfields
    rw [if_pos ‹_›, h.keyField hfield]
    exact heq
  · obtain ⟨field, hfield, hfields⟩ := bind_eq_ok.mp hfields
    obtain ⟨ownField, hown, heq⟩ := bind_eq_ok.mp hfields
    rw [if_neg ‹_›, h.keyField hfield, ok_bind, h.keyField hown]
    exact heq

namespace Call

open Collector

/-- The call is for a request with decorations, with the same settings and at least the same
snapshots. -/
structure Extends (c' c : Call) : Prop where
  request : c'.request.Decorates c.request
  settings : c'.settings = c.settings
  snapshot : ∀ name snapshot, c.snapshot name = .ok snapshot → c'.snapshot name = .ok snapshot

section Extends

variable {c' c : Call} (h : c'.Extends c)
include h

theorem Extends.target_eq : c'.target = c.target := h.request.resultsFrom

theorem Extends.ratio_eq : c'.ratio = c.ratio := by rw [ratio, ratio, h.request.rankRatio]

theorem Extends.groupsOf_eq (snapshot : Snapshot) :
    groupsOf c'.workshop snapshot = groupsOf c.workshop snapshot := by
  rw [groupsOf, groupsOf, workshop, workshop, h.settings]

/-- The first step that needs the snapshot of a core. -/
theorem Extends.with_snapshot {core : String} {α : Type} {f : Snapshot → Except Failure α} {x : α}
    (hx : (c.snapshot core >>= f) = .ok x) : (c'.snapshot core >>= f) = .ok x := by
  obtain ⟨snapshot, hsnapshot, hx⟩ := bind_eq_ok.mp hx
  rw [h.snapshot core snapshot hsnapshot]
  exact hx

section Tables

variable [PatternEngines] {catalog : Catalog} (hlists : c.Lists catalog)
include hlists

/-- A search for a table of another core. -/
theorem Extends.outcome {L P F : Type} {collector : Collector Unit L P F} {view : L → List String}
    (hquiet : collector.Quiet) (hmodest : collector.Modest view) {core : String} {query : Query} {x : F}
    (hx : (c.snapshot core >>= fun snapshot => collector.outcome c.workshop snapshot query) = .ok x) :
    (c'.snapshot core >>= fun snapshot => collector.outcome c'.workshop snapshot query) = .ok x := by
  obtain ⟨snapshot, hsnapshot, hx⟩ := bind_eq_ok.mp hx
  rw [h.snapshot core snapshot hsnapshot]
  obtain ⟨y, hy, rfl⟩ := (agrees_iff.mp (hquiet.agrees_outcome hmodest (hlists.snapshot hsnapshot)
    (h.groupsOf_eq snapshot))).1 x hx
  exact hy

theorem Extends.rankOf {core : String} {query : Query} {rank : RankSource}
    (hrank : c.rankOf core query = .ok rank) : c'.rankOf core query = .ok rank := by
  obtain ⟨ownField, hown, hrank⟩ := bind_eq_ok.mp hrank
  obtain ⟨table, htable, hrank⟩ := bind_eq_ok.mp hrank
  obtain ⟨field, hfield, hrank⟩ := bind_eq_ok.mp hrank
  rw [Call.rankOf, h.target_eq, h.request.keyField hown, ok_bind,
    h.outcome hlists (quiet_rankScores ownField) (modest_rankScores ownField) htable, ok_bind,
    h.request.keyField hfield]
  exact hrank

theorem Extends.clauseOf {f : SortField} {clause : SortClause} (hclause : c.clauseOf f = .ok clause) :
    c'.clauseOf f = .ok clause := by
  rw [Call.clauseOf, h.target_eq]
  rw [Call.clauseOf] at hclause
  split at hclause
  · rename_i core _
    by_cases hown : core = c.target
    · simpa only [hown, if_true] using hclause
    · simp only [hown, if_false] at hclause ⊢
      obtain ⟨ownField, hownField, hclause⟩ := bind_eq_ok.mp hclause
      obtain ⟨table, htable, hclause⟩ := bind_eq_ok.mp hclause
      obtain ⟨field, hfield, hclause⟩ := bind_eq_ok.mp hclause
      rw [relatedClauseOf, h.target_eq, h.request.keyField hownField, ok_bind,
        (h.request.cores core).fullQuery_eq,
        h.outcome hlists (quiet_firstDocs ownField) (modest_firstDocs ownField) htable, ok_bind,
        h.request.keyField hfield, ok_bind]
      exact h.with_snapshot hclause
  · exact hclause

end Tables

end Extends

end Call

/-! ### Demands that are the same -/

/-- The demands are on the same fields, and they allow the same keys. -/
structure Demand.Same (d d' : Demand) : Prop where
  reaches : ∀ field, d.reaches field ↔ d'.reaches field
  allows : ∀ key, d.allows key ↔ d'.allows key

/-- Each demand of either list is in the other one. -/
structure Demand.Matched (demands demands' : List Demand) : Prop where
  left : ∀ d ∈ demands, ∃ d' ∈ demands', d.Same d'
  right : ∀ d' ∈ demands', ∃ d ∈ demands, d.Same d'

namespace Demand

theorem matched_nil : Matched [] [] :=
  ⟨fun _ h => absurd h List.not_mem_nil, fun _ h => absurd h List.not_mem_nil⟩

theorem Matched.append {demands demands' more more' : List Demand} (h : Matched demands demands')
    (hmore : Matched more more') : Matched (demands ++ more) (demands' ++ more') where
  left d hd := by
    rcases List.mem_append.mp hd with hd | hd
    · obtain ⟨d', hd', hsame⟩ := h.left d hd
      exact ⟨d', List.mem_append_left _ hd', hsame⟩
    · obtain ⟨d', hd', hsame⟩ := hmore.left d hd
      exact ⟨d', List.mem_append_right _ hd', hsame⟩
  right d' hd' := by
    rcases List.mem_append.mp hd' with hd' | hd'
    · obtain ⟨d, hd, hsame⟩ := h.right d' hd'
      exact ⟨d, List.mem_append_left _ hd, hsame⟩
    · obtain ⟨d, hd, hsame⟩ := hmore.right d' hd'
      exact ⟨d, List.mem_append_right _ hd, hsame⟩

theorem Same.matched {d d' : Demand} (h : d.Same d') : Matched [d] [d'] where
  left _ he := ⟨d', List.mem_singleton_self _, List.mem_singleton.mp he ▸ h⟩
  right _ he := ⟨d, List.mem_singleton_self _, List.mem_singleton.mp he ▸ h⟩

/-- Demands that come from the same things one by one. -/
theorem matched_map {ι : Type} {items : List ι} {make make' : ι → Demand}
    (h : ∀ item ∈ items, (make item).Same (make' item)) :
    Matched (items.map make) (items.map make') where
  left d hd := by
    obtain ⟨item, hitem, rfl⟩ := List.mem_map.mp hd
    exact ⟨make' item, List.mem_map_of_mem hitem, h item hitem⟩
  right d' hd' := by
    obtain ⟨item, hitem, rfl⟩ := List.mem_map.mp hd'
    exact ⟨make item, List.mem_map_of_mem hitem, h item hitem⟩

end Demand

/-- **Constraints are known from the demands**, whatever bits they are in. -/
theorem Constraints.Reflects.alike {a b : Constraints} {demands demands' : List Demand}
    (ha : a.Reflects demands) (hb : b.Reflects demands') (h : Demand.Matched demands demands') :
    a.Alike b := by
  intro field
  have hreached : (a.sets.find? field).isSome = (b.sets.find? field).isSome := by
    rw [Bool.eq_iff_iff, ha.reached, hb.reached]
    constructor
    · rintro ⟨d, hd, hreach⟩
      obtain ⟨d', hd', hsame⟩ := h.left d hd
      exact ⟨d', hd', (hsame.reaches field).mp hreach⟩
    · rintro ⟨d', hd', hreach⟩
      obtain ⟨d, hd, hsame⟩ := h.right d' hd'
      exact ⟨d, hd, (hsame.reaches field).mpr hreach⟩
  rcases hset : a.sets.find? field with _ | set <;> rcases hset' : b.sets.find? field with _ | set' <;>
    rw [hset, hset'] at hreached
  · exact .none
  · exact nomatch hreached
  · exact nomatch hreached
  · refine .some ⟨ha.proper field set hset, hb.proper field set' hset', fun key => ?_⟩
    rw [Bool.eq_iff_iff, ha.contains field set hset, hb.contains field set' hset']
    constructor
    · intro hall d' hd' hreach
      obtain ⟨d, hd, hsame⟩ := h.right d' hd'
      exact (hsame.allows key).mp (hall d hd ((hsame.reaches field).mpr hreach))
    · intro hall d hd hreach
      obtain ⟨d', hd', hsame⟩ := h.left d hd
      exact (hsame.allows key).mpr (hall d' hd' ((hsame.reaches field).mp hreach))

variable [PatternEngines]

namespace Call

/-- What the constraints of the call look up is there. -/
structure Resolves (c : Call) : Prop where
  snapshot : ∀ name ∈ c.request.referencedCores, ∃ snapshot, c.snapshot name = .ok snapshot
  cores : ∀ name ∈ c.request.cores.keys, name ≠ c.target → ∃ field ownField,
    c.request.keyField c.target name = .ok field ∧ c.request.keyField name c.target = .ok ownField
  unites : ∀ u ∈ c.request.unites, (∃ fields, c.request.sideFields u.coreA u.coreB = .ok fields) ∧
    ∃ fields, c.request.sideFields u.coreB u.coreA = .ok fields

section Demands

variable {c' c : Call} (h : c'.Extends c) (hresolves : c.Resolves)
include h hresolves

theorem Extends.finds_iff {core : String} (hcore : core ∈ c.request.referencedCores) (query : Query)
    (field : String) (key : JoinKey) :
    c.Finds core query field key ↔ c'.Finds core query field key := by
  obtain ⟨snapshot, hsnapshot⟩ := hresolves.snapshot core hcore
  have hfind := snapshot_eq_ok hsnapshot
  have hfind' := snapshot_eq_ok (h.snapshot core snapshot hsnapshot)
  rw [Finds, Finds, hfind, hfind']

theorem Extends.sideFinds_iff {core partner : String} (hcore : core ∈ c.request.referencedCores)
    {fields : String × String} (hfields : c.request.sideFields core partner = .ok fields)
    (query : Query) (key : JoinKey) :
    c.SideFinds core query partner key ↔ c'.SideFinds core query partner key := by
  simp only [SideFinds, ← Request.sideFields_eq_ok, hfields, h.request.sideFields hfields,
    h.finds_iff hresolves hcore]

theorem Extends.same_uniteDemand {u : Unite} (hu : u ∈ c.request.unites) :
    (c.uniteDemand u).Same (c'.uniteDemand u) := by
  obtain ⟨⟨fieldsA, hfieldsA⟩, fieldsB, hfieldsB⟩ := hresolves.unites u hu
  obtain ⟨hcoreA, hcoreB⟩ := Request.mem_referencedCores_of_unite hu
  refine ⟨fun field => ?_, fun key => ?_⟩
  · simp only [uniteDemand, ← Request.sideFields_eq_ok, hfieldsA, h.request.sideFields hfieldsA]
  · exact or_congr (h.sideFinds_iff hresolves hcoreA hfieldsA u.queryA key)
      (h.sideFinds_iff hresolves hcoreB hfieldsB u.queryB key)

omit [PatternEngines] in
/-- A demand of another core. -/
theorem Extends.same_relatedDemand {name : String} (hname : name ∈ c.request.cores.keys)
    (hother : name ≠ c.target) {allows allows' : String → JoinKey → Prop}
    (hallows : ∀ field key, allows field key ↔ allows' field key) :
    (c.relatedDemand name allows).Same (c'.relatedDemand name allows') := by
  obtain ⟨field, ownField, hfield, hown⟩ := hresolves.cores name hname hother
  have hfield' := h.request.keyField hfield
  have hown' := h.request.keyField hown
  rw [← h.target_eq] at hfield' hown'
  refine ⟨fun other => ?_, fun key => ?_⟩
  · show c.request.LinkedBy c.target name other ↔ c'.request.LinkedBy c'.target name other
    rw [← Request.keyField_eq_ok, ← Request.keyField_eq_ok, hfield, hfield']
  · show (∃ other, c.request.LinkedBy name c.target other ∧ allows other key) ↔
      ∃ other, c'.request.LinkedBy name c'.target other ∧ allows' other key
    simp only [← Request.keyField_eq_ok, hown, hown', hallows]

/-- The demands of another core. -/
theorem Extends.matched_coreDemands {name : String} (hname : name ∈ c.request.cores.keys)
    (hother : name ≠ c.target) :
    Demand.Matched (c.coreDemands name (c.request.core name))
      (c'.coreDemands name (c'.request.core name)) := by
  have hcore := h.request.cores name
  have hunited : c'.request.Unites name ↔ c.request.Unites name := by
    rw [Request.Unites, Request.Unites, h.request.unites]
  have hfinds : ∀ query field key, c.Finds name query field key ↔ c'.Finds name query field key :=
    h.finds_iff hresolves (Request.mem_referencedCores_of_listed hname)
  rw [coreDemands, coreDemands, hcore.query, hcore.filters, hcore.excludes]
  simp only [hunited]
  refine (Demand.Matched.append ?_ ?_).append ?_
  · exact Demand.matched_map fun filter _ =>
      h.same_relatedDemand hresolves hname hother (hfinds filter)
  · exact Demand.matched_map fun exclude _ =>
      h.same_relatedDemand hresolves hname hother fun field key => not_congr (hfinds exclude field key)
  · rcases (c.request.core name).query with _ | primary
    · exact Demand.matched_nil
    · show Demand.Matched (if _ then _ else _) (if _ then _ else _)
      split
      · exact Demand.matched_nil
      · exact (h.same_relatedDemand hresolves hname hother (hfinds primary)).matched

theorem Extends.matched_demands {relational relational' : KeySet}
    (hset : c.request.relationalFilter ≠ none → relational.Alike relational') :
    Demand.Matched (c.demands relational) (c'.demands relational') := by
  rw [demands, demands, h.request.unites]
  refine (Demand.Matched.append ?_ ?_).append ⟨fun d hd => ?_, fun d' hd' => ?_⟩
  · rw [relationalDemands, relationalDemands, h.request.relationalFilter]
    rcases hfilter : c.request.relationalFilter with _ | filter
    · exact Demand.matched_nil
    · have halike := hset (hfilter ▸ Option.some_ne_none filter)
      refine Demand.Same.matched ⟨fun _ => .rfl, fun key => ?_⟩
      show relational.contains key = true ↔ relational'.contains key = true
      rw [halike.contains_eq]
  · exact Demand.matched_map fun u hu => h.same_uniteDemand hresolves hu
  · obtain ⟨⟨name, core⟩, hmem, hd⟩ := List.mem_flatMap.mp hd
    obtain ⟨hname, hother, rfl⟩ := Request.mem_otherCores.mp hmem
    obtain ⟨d', hd', hsame⟩ := (h.matched_coreDemands hresolves hname hother).left d hd
    refine ⟨d', List.mem_flatMap.mpr ⟨(name, c'.request.core name), ?_, hd'⟩, hsame⟩
    exact Request.mem_otherCores.mpr
      ⟨h.request.listed hname, h.request.resultsFrom ▸ hother, rfl⟩
  · obtain ⟨⟨name, core⟩, hmem, hd'⟩ := List.mem_flatMap.mp hd'
    obtain ⟨-, hother, rfl⟩ := Request.mem_otherCores.mp hmem
    rw [h.request.resultsFrom] at hother
    by_cases hname : name ∈ c.request.cores.keys
    · obtain ⟨d, hd, hsame⟩ := (h.matched_coreDemands hresolves hname hother).right d' hd'
      exact ⟨d, List.mem_flatMap.mpr ⟨(name, c.request.core name),
        Request.mem_otherCores.mpr ⟨hname, hother, rfl⟩, hd⟩, hsame⟩
    · -- nothing is asked of a core that is listed for a decoration
      have hcore := h.request.cores name
      rw [Request.core_eq_of_not_listed hname] at hcore
      rw [coreDemands, hcore.query, hcore.filters, hcore.excludes] at hd'
      exact absurd hd' List.not_mem_nil

end Demands

/-! ### What the constraints look up -/

section Needs

variable (c : Call)

omit [PatternEngines] in
theorem needs_timed {τ α : Type} {a : Act CallStore α} {p : Prop} (h : a.Needs p)
    (clock : StateM τ Nat) (phase core : String) :
    (CallM.toAct (c.timed clock phase core a)).Needs p := by
  intro s x t hx
  obtain ⟨timings, u, hr⟩ := CallM.result_timed c clock phase core a s
  have hvalue : (a.result s.1.toCallStore).1 = .ok x := congrArg Prod.fst (hr.symm.trans hx)
  exact h s.1.toCallStore x _ (Prod.ext hvalue rfl)

theorem needs_uniteSide (core : String) (query : Query) (partner : String) :
    (c.uniteSide core query partner).Needs
      (∃ fields, c.request.sideFields core partner = .ok fields) := by
  rw [uniteSide, Request.sideFields]
  by_cases hown : core = c.target
  · have hown' : core = c.request.resultsFrom := hown
    rw [if_pos hown, if_pos hown']
    refine Act.Needs.bind_left ((Act.needs_ofExcept _).mono ?_) _
    rintro ⟨field, hfield⟩
    rw [hfield]
    exact ⟨_, rfl⟩
  · have hown' : ¬ core = c.request.resultsFrom := hown
    rw [if_neg hown, if_neg hown']
    refine (((Act.needs_ofExcept _).bind_left _).and
      (Act.Needs.bind_right fun _ => (Act.needs_ofExcept _).bind_left _)).mono ?_
    rintro ⟨⟨field, hfield⟩, ownField, hownField⟩
    have hfield : c.request.keyField c.request.resultsFrom core = .ok field := hfield
    have hownField : c.request.keyField core c.request.resultsFrom = .ok ownField := hownField
    rw [hfield, hownField]
    exact ⟨_, rfl⟩

theorem needs_requireUnite (all : Constraints) (u : Unite) :
    (c.requireUnite all u).Needs ((∃ fields, c.request.sideFields u.coreA u.coreB = .ok fields) ∧
      ∃ fields, c.request.sideFields u.coreB u.coreA = .ok fields) :=
  ((c.needs_uniteSide u.coreA u.queryA u.coreB).bind_left _).and
    (Act.Needs.bind_right fun _ => (c.needs_uniteSide u.coreB u.queryB u.coreA).bind_left _)

theorem needs_requireCore (all : Constraints) (name : String) (core : CoreQuery) :
    (c.requireCore all name core).Needs (∃ field ownField,
      c.request.keyField c.target name = .ok field ∧
        c.request.keyField name c.target = .ok ownField) := by
  refine (((Act.needs_ofExcept (c.request.keyField c.target name)).bind_left _).and
    (Act.Needs.bind_right fun _ =>
      (Act.needs_ofExcept (c.request.keyField name c.target)).bind_left _)).mono ?_
  rintro ⟨⟨field, hfield⟩, ownField, hown⟩
  exact ⟨field, ownField, hfield, hown⟩

variable {c} {τ : Type} (clock : StateM τ Nat)

/-- **Constraints that could be collected** found all that they look up. -/
theorem resolves_of_constraintsPhase {e : Engine} {held : Liveness} {r : Request}
    (hcall : e.call held r = .ok c) {s : CallState × τ} {all : Constraints}
    (hall : ((CallM.toAct (c.constraintsPhase clock)).result s).1 = .ok all) : c.Resolves := by
  have hneeds : ∀ {p : Prop}, (CallM.toAct (c.constraintsPhase clock)).Needs p → p := fun h =>
    h s all _ (Prod.ext hall rfl)
  obtain ⟨rfl, -, hsnapshots⟩ := Engine.of_call_eq_ok hcall
  refine ⟨fun name hname => ?_, fun name hname hother => hneeds ?_, fun u hu => hneeds ?_⟩
  · obtain ⟨snapshot, hfind⟩ :=
      Option.isSome_iff_exists.mp ((Engine.isSome_snapshots_iff hsnapshots name).mpr hname)
    refine ⟨snapshot, ?_⟩
    rw [Call.snapshot, hfind]
  · have hmem : (name, c.request.core name) ∈ c.request.otherCores :=
      Request.mem_otherCores.mpr ⟨hname, hother, rfl⟩
    have hfederated : c.isFederated = true := by
      by_contra hnot
      rw [(Engine.single_of_call hcall (Bool.not_eq_true _ ▸ hnot)).1] at hmem
      exact absurd hmem List.not_mem_nil
    rw [constraintsPhase, if_pos hfederated, constraints_eq]
    simp only [CallM.toAct_bind, CallM.toAct_foldlM]
    exact Act.Needs.bind_right fun _ => Act.Needs.bind_right fun _ => Act.Needs.foldlM hmem
      (fun _ => c.needs_timed (c.needs_requireCore _ _ _) clock _ _) _
  · have hfederated : c.isFederated = true := by
      by_contra hnot
      rw [(Engine.single_of_call hcall (Bool.not_eq_true _ ▸ hnot)).2.1] at hu
      exact absurd hu List.not_mem_nil
    rw [constraintsPhase, if_pos hfederated, constraints_eq]
    simp only [CallM.toAct_bind, CallM.toAct_foldlM]
    exact Act.Needs.bind_right fun _ => Act.Needs.bind_left (Act.Needs.foldlM hu
      (fun _ => c.needs_timed (c.needs_requireUnite _ _) clock _ _) _) _

end Needs

/-! ### The constraints of both calls -/

section Constraints

variable {catalog catalog' : Catalog} {c c' : Call} (h : c'.Extends c)
include h

/-- The relational filter comes to the same keys. -/
theorem Extends.mirrors_evaluate (hresolves : c.Resolves) (hlists : c.Lists catalog)
    (hlists' : c'.Lists catalog') {filter : RelationalFilter}
    (hfilter : c.request.relationalFilter = some filter) :
    Act.Mirrors (fun _ => False) (CallStore.Sound catalog) (CallStore.Sound catalog') KeySet.Alike
      (filter.expr.evaluate c.collectKeys none) (filter.expr.evaluate c'.collectKeys none) := by
  refine filter.expr.mirrors_evaluate (fun core hcore q r field hquery => ?_) .none
  obtain ⟨snapshot, hsnapshot⟩ :=
    hresolves.snapshot core (Request.mem_referencedCores_of_relational hfilter hcore)
  have hsame : c.snapshot core = c'.snapshot core :=
    hsnapshot.trans (h.snapshot core snapshot hsnapshot).symm
  exact mirrors_collectKeys hlists hlists' hsame hquery field

/-- **The constraints** are alike, if both calls can collect them. -/
theorem Extends.alike_constraints (hgrounded : c.Grounded catalog) (hgrounded' : c'.Grounded catalog')
    {e e' : Engine} {held held' : Liveness} {r r' : Request} (hcall : e.call held r = .ok c)
    (hcall' : e'.call held' r' = .ok c') {τ τ' : Type} (clock : StateM τ Nat)
    (clock' : StateM τ' Nat) {s : CallState × τ} {s' : CallState × τ'}
    (hsound : s.1.Sound catalog) (hsound' : s'.1.Sound catalog')
    {all all' : Constraints}
    (hall : ((CallM.toAct (c.constraintsPhase clock)).result s).1 = .ok all)
    (hall' : ((CallM.toAct (c'.constraintsPhase clock')).result s').1 = .ok all') :
    all.Alike all' := by
  have hresolves : c.Resolves := resolves_of_constraintsPhase clock hcall hall
  obtain ⟨relational, hset, hreflects⟩ := Engine.reflects_constraintsPhase hcall hgrounded.lists
    hgrounded.taken.indexed clock hsound hall
  obtain ⟨relational', hset', hreflects'⟩ := Engine.reflects_constraintsPhase hcall' hgrounded'.lists
    hgrounded'.taken.indexed clock' hsound' hall'
  refine hreflects.alike hreflects' (h.matched_demands hresolves fun hsome => ?_)
  obtain ⟨filter, hfilter⟩ := Option.ne_none_iff_exists'.mp hsome
  exact (h.mirrors_evaluate hresolves hgrounded.lists hgrounded'.lists hfilter).of_ok hsound hsound'
    (hset filter hfilter) (hset' filter (h.request.relationalFilter.trans hfilter))

end Constraints

end Call

end FederatedSearch
