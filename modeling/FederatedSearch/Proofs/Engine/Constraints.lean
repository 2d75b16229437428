import FederatedSearch.Proofs.Cache.Transparency
import FederatedSearch.Proofs.Relation.Reading

/-!
# The constraints mean what the request declares

Relational filter, unites and the other cores each put demands on the keys in fields of the result
core. The phases of a call collect the sets of admissible keys one after the other, through the
caches. What they come to is, for each field, exactly the keys that all demands on the field allow,
and nothing for a field without a demand.

Demands add up in one set by field, of which some are plain and some are complements. The invariant
is `Constraints.Reflects`: the sets collected so far stand for the demands met so far. Key 0 is no
exception, since collected keys never contain it.

## Main definitions

* `Demand`, `Call.demands` — what a request declares
* `Constraints.Reflects` — sets by field stand for a list of demands

## Main results

* `Constraints.Reflects.require` — one more demand
* `Call.ends_constraints` — the demands of all phases
* `Session.constraints_reflect` — at any time of a session
-/

namespace FederatedSearch

/-! ### What a request declares -/

/-- A demand on the keys in a field of the result core. -/
structure Demand where
  /-- Whether the demand is on the field. -/
  reaches : String → Prop
  allows : JoinKey → Prop

namespace Request

variable (r : Request)

/-- The first link from one core to another is through the field. -/
def LinkedBy (source target field : String) : Prop :=
  ∃ earlier later, r.links = earlier ++ ⟨source, target, field⟩ :: later ∧
    ∀ link ∈ earlier, ¬(link.source = source ∧ link.target = target)

/-- One side of a unite goes through `field` of the result core, and has its keys in `ownField`. The
result core itself goes by its link to the other side. -/
def SideFields (core partner field ownField : String) : Prop :=
  (core = r.resultsFrom ∧ r.LinkedBy core partner field ∧ ownField = field) ∨
    (core ≠ r.resultsFrom ∧ r.LinkedBy r.resultsFrom core field ∧
      r.LinkedBy core r.resultsFrom ownField)

/-- Some unite names the core. -/
def Unites (core : String) : Prop := ∃ u ∈ r.unites, u.coreA = core ∨ u.coreB = core

instance (core : String) : Decidable (r.Unites core) :=
  inferInstanceAs (Decidable (∃ u ∈ r.unites, _))

end Request

namespace Call

variable [PatternEngines] (c : Call)

/-- The key is not 0, and some live document of the core matches the query and has it in the
field. -/
def Finds (core : String) (query : Query) (field : String) (key : JoinKey) : Prop :=
  key ≠ noKey ∧
    ∃ snapshot, c.snapshots.find? core = some snapshot ∧ snapshot.FindsKey query field key

/-- One side of a unite has the key. -/
def SideFinds (core : String) (query : Query) (partner : String) (key : JoinKey) : Prop :=
  ∃ field ownField, c.request.SideFields core partner field ownField ∧
    c.Finds core query ownField key

/-- A unite asks for a key of either side. -/
def uniteDemand (u : Unite) : Demand where
  reaches field := ∃ ownField, c.request.SideFields u.coreA u.coreB field ownField
  allows key := c.SideFinds u.coreA u.queryA u.coreB key ∨ c.SideFinds u.coreB u.queryB u.coreA key

/-- A demand of another core, in terms of the keys in its own key field. -/
def relatedDemand (name : String) (allows : String → JoinKey → Prop) : Demand where
  reaches field := c.request.LinkedBy c.request.resultsFrom name field
  allows key := ∃ ownField, c.request.LinkedBy name c.request.resultsFrom ownField ∧
    allows ownField key

/-- Another core asks for a key of each filter and of no exclusion, and for one of its primary query
unless a unite names the core. -/
def coreDemands (name : String) (core : CoreQuery) : List Demand :=
  core.filters.map (fun filter => c.relatedDemand name (c.Finds name filter)) ++
    core.excludes.map (fun exclude =>
      c.relatedDemand name fun ownField key => ¬ c.Finds name exclude ownField key) ++
    match core.query with
    | some primary =>
      if c.request.Unites name then [] else [c.relatedDemand name (c.Finds name primary)]
    | none => []

/-- The relational filter asks for a key of the set that its expression comes to. -/
def relationalDemands (relational : KeySet) : List Demand :=
  match c.request.relationalFilter with
  | some filter => [⟨(filter.field = ·), (relational.contains · = true)⟩]
  | none => []

/-- All demands of the request: those of the relational filter, of each unite and of each core that is
listed besides the result core. -/
def demands (relational : KeySet) : List Demand :=
  c.relationalDemands relational ++ c.request.unites.map c.uniteDemand ++
    (c.request.cores.entries.filter fun core => core.1 ≠ c.request.resultsFrom).flatMap fun core =>
      c.coreDemands core.1 core.2

/-- The cores are those that the phases go through. -/
theorem demands_eq (relational : KeySet) : c.demands relational =
    c.relationalDemands relational ++ c.request.unites.map c.uniteDemand ++
      c.request.otherCores.flatMap fun core => c.coreDemands core.1 core.2 := rfl

end Call

/-! ### How the fields are looked up -/

namespace Request

variable {r : Request}

theorem keyField_eq_ok {source target field : String} :
    r.keyField source target = .ok field ↔ r.LinkedBy source target field := by
  rw [keyField, LinkedBy]
  constructor
  · intro h
    split at h
    · rename_i link hlink
      obtain ⟨hends, earlier, later, hlinks, hearlier⟩ := List.find?_eq_some_iff_append.mp hlink
      obtain ⟨rfl, rfl⟩ := of_decide_eq_true hends
      obtain rfl := Except.ok.inj h
      exact ⟨earlier, later, hlinks,
        by simpa only [Bool.not_eq_true', decide_eq_false_iff_not] using hearlier⟩
    · exact absurd h (by simp)
  · rintro ⟨earlier, later, hlinks, hearlier⟩
    have hfirst : r.links.find? (fun l => l.source = source ∧ l.target = target) =
        some ⟨source, target, field⟩ :=
      List.find?_eq_some_iff_append.mpr ⟨by simp, earlier, later, hlinks,
        by simpa only [Bool.not_eq_true', decide_eq_false_iff_not] using hearlier⟩
    rw [hfirst]

/-- There is only one field that a link goes by. -/
theorem LinkedBy.unique {source target field other : String} (h : r.LinkedBy source target field)
    (hother : r.LinkedBy source target other) : other = field :=
  Except.ok.inj ((keyField_eq_ok.mpr hother).symm.trans (keyField_eq_ok.mpr h))

/-- The fields of one side of a unite, link by link. -/
def sideFields (r : Request) (core partner : String) : Except Failure (String × String) :=
  if core = r.resultsFrom then do
    let field ← r.keyField core partner
    return (field, field)
  else do
    let field ← r.keyField r.resultsFrom core
    return (field, ← r.keyField core r.resultsFrom)

theorem sideFields_eq_ok {core partner field ownField : String} :
    r.sideFields core partner = .ok (field, ownField) ↔ r.SideFields core partner field ownField := by
  rw [sideFields, SideFields]
  by_cases hcore : core = r.resultsFrom
  · rw [if_pos hcore, bind_eq_ok]
    constructor
    · rintro ⟨found, hfound, heq⟩
      obtain ⟨rfl, rfl⟩ := Prod.mk.inj (Except.ok.inj heq)
      exact .inl ⟨hcore, keyField_eq_ok.mp hfound, rfl⟩
    · rintro (⟨-, hlinked, rfl⟩ | ⟨hne, -⟩)
      · exact ⟨_, keyField_eq_ok.mpr hlinked, rfl⟩
      · exact absurd hcore hne
  · rw [if_neg hcore, bind_eq_ok]
    constructor
    · rintro ⟨found, hfound, hown⟩
      obtain ⟨foundOwn, hfoundOwn, heq⟩ := bind_eq_ok.mp hown
      obtain ⟨rfl, rfl⟩ := Prod.mk.inj (Except.ok.inj heq)
      exact .inr ⟨hcore, keyField_eq_ok.mp hfound, keyField_eq_ok.mp hfoundOwn⟩
    · rintro (⟨heq, -⟩ | ⟨-, hlinked, hown⟩)
      · exact absurd heq hcore
      · exact ⟨field, keyField_eq_ok.mpr hlinked, bind_eq_ok.mpr ⟨ownField, keyField_eq_ok.mpr hown, rfl⟩⟩

end Request

/-! ### Sets that stand for demands -/

namespace Constraints

/-- There is a set for just the fields that some demand is on, and it has just the keys that all
demands on the field allow. -/
structure Reflects (constraints : Constraints) (demands : List Demand) : Prop where
  reached : ∀ field,
    (constraints.sets.find? field).isSome = true ↔ ∃ d ∈ demands, d.reaches field
  contains : ∀ field set, constraints.sets.find? field = some set → ∀ key : Nat,
    set.contains key = true ↔ ∀ d ∈ demands, d.reaches field → d.allows key
  proper : ∀ field set, constraints.sets.find? field = some set → set.Proper

theorem reflects_empty : Constraints.empty.Reflects [] :=
  ⟨fun _ => by simp [Constraints.empty], nofun, nofun⟩

/-- The set of a field after one more demand. -/
theorem find?_require (constraints : Constraints) (field other : String) (keys : KeySet) :
    (constraints.require field keys).sets.find? other =
      if field = other then
        some (match constraints.sets.find? field with
          | some current => current.meet keys
          | none => keys)
      else constraints.sets.find? other :=
  NameMap.find?_update _ _ _ _

/-- **One more demand.** -/
theorem Reflects.require {constraints : Constraints} {demands : List Demand}
    (h : constraints.Reflects demands) {field : String} {keys : KeySet} (hkeys : keys.Proper)
    {d : Demand} (hreaches : ∀ other, d.reaches other ↔ field = other)
    (hallows : ∀ key : Nat, keys.contains key = true ↔ d.allows key) :
    (constraints.require field keys).Reflects (demands ++ [d]) := by
  refine ⟨fun other => ?_, fun other set hset key => ?_, fun other set hset => ?_⟩
  · rw [find?_require]
    by_cases heq : field = other
    · simp only [heq, if_true, Option.isSome_some, true_iff]
      exact ⟨d, by simp, (hreaches other).mpr heq⟩
    · rw [if_neg heq, h.reached other]
      constructor
      · rintro ⟨e, he, hreach⟩
        exact ⟨e, List.mem_append_left _ he, hreach⟩
      · rintro ⟨e, he, hreach⟩
        rcases List.mem_append.mp he with he | he
        · exact ⟨e, he, hreach⟩
        · obtain rfl := List.mem_singleton.mp he
          exact absurd ((hreaches other).mp hreach) heq
  · rw [find?_require] at hset
    simp only [List.forall_mem_append, List.forall_mem_singleton, hreaches]
    by_cases heq : field = other
    · subst heq
      rw [if_pos rfl, Option.some.injEq] at hset
      rcases hfind : constraints.sets.find? field with _ | current
      · obtain rfl : keys = set := by rw [← hset, hfind]
        have hnone : ¬ ∃ e ∈ demands, e.reaches field := by
          rw [← h.reached, hfind]
          exact Bool.false_ne_true
        constructor
        · intro hmem
          exact ⟨fun e he hreach => absurd ⟨e, he, hreach⟩ hnone, fun _ => (hallows key).mp hmem⟩
        · rintro ⟨-, hlast⟩
          exact (hallows key).mpr (hlast rfl)
      · obtain rfl : current.meet keys = set := by rw [← hset, hfind]
        rw [KeySet.contains_meet current (.inr hkeys), Bool.and_eq_true,
          h.contains field current hfind, hallows]
        simp
    · rw [if_neg heq] at hset
      rw [h.contains other set hset]
      simp [heq]
  · rw [find?_require] at hset
    split at hset
    · obtain rfl := Option.some.inj hset
      split
      · rename_i current hfind
        exact (h.proper field current hfind).meet hkeys
      · exact hkeys
    · exact h.proper other set hset

end Constraints

/-! ### The phases -/

namespace Call

variable {catalog : Catalog} {c : Call}

theorem contains_united_iff (c : Call) (name : String) :
    c.united.contains name = true ↔ c.request.Unites name := by
  rw [List.contains_iff_mem, united, List.mem_flatMap]
  exact exists_congr fun u => and_congr_right fun _ => by simp [eq_comm]

/-- No segment of the snapshots is damaged. -/
def Indexed (c : Call) : Prop :=
  ∀ name snapshot, c.snapshots.find? name = some snapshot →
    ∀ placed ∈ snapshot.segments, ∃ segment, placed.segment = .indexed segment

theorem snapshot_eq_ok {core : String} {snapshot : Snapshot} (h : c.snapshot core = .ok snapshot) :
    c.snapshots.find? core = some snapshot := by
  rw [Call.snapshot] at h
  split at h
  · rename_i other hfind
    rw [hfind, Except.ok.inj h]
  · exact absurd h (by simp)

variable [PatternEngines]

section Phases

variable (hlists : c.Lists catalog) (hindexed : c.Indexed) {store : CallStore}
  (hsound : store.Sound catalog)
include hlists hindexed hsound

/-- Collected keys are those that are found, whatever the caches hold. -/
theorem ends_collectKeys (core : String) (query : Query) (field : String) :
    (c.collectKeys core query field).Ends store
      (fun bits t => t.Sound catalog ∧ bits.Proper ∧
        ∀ key : Nat, bits.contains key = true ↔ c.Finds core query field key) fun _ => True := by
  rw [Call.collectKeys]
  rcases hs : c.snapshot core with failure | snapshot
  · exact trivial
  · have hfind := snapshot_eq_ok hs
    refine ((CallStore.comes_onCaches fun schedule => Caches.comes_collectKeys c.workshop schedule
      (hlists.snapshot hs) query field).ends hsound).mono ?_ fun _ h => h
    rintro bits t ⟨hsound', -, hbits⟩
    have hfinds : ∀ key : Nat, bits.contains key = true ↔ c.Finds core query field key := by
      intro key
      rw [hbits, Snapshot.exists_hasKey_iff (hindexed core snapshot hfind), Finds]
      simp [hfind]
    refine ⟨hsound', ?_, hfinds⟩
    rw [KeyBits.Proper, ← Bool.not_eq_true, hfinds]
    exact fun h => h.1 rfl

/-- The set of a relational expression never has key 0 in its bits. -/
theorem ends_evaluate (e : RelationalExpr) (restriction : Option KeySet)
    (hrestriction : ∀ keys ∈ restriction, keys.Proper) :
    (e.evaluate c.collectKeys restriction).Ends store
      (fun set t => t.Sound catalog ∧ set.Proper) fun _ => True := by
  induction e generalizing store restriction with
  | leaf core query field =>
    refine (ends_collectKeys hlists hindexed hsound _ _ _).bind ?_
    rintro bits t ⟨hsound', hproper, -⟩
    exact Act.ends_pure ⟨hsound', hproper⟩
  | and first second ihf ihs =>
    rw [RelationalExpr.evaluate_and_eq]
    refine (ihf hsound _ hrestriction).bind ?_
    rintro left t ⟨hsound', hleft⟩
    have hallowed := hleft.allowed hrestriction
    refine (ihs hsound' _ (fun keys hkeys => Option.some.inj hkeys ▸ hallowed)).bind ?_
    rintro right u ⟨hsound'', hright⟩
    exact Act.ends_pure ⟨hsound'', hallowed.cutBack hright⟩
  | or first second ihf ihs =>
    rw [RelationalExpr.evaluate_or_eq]
    refine (ihf hsound _ hrestriction).bind ?_
    rintro left t ⟨hsound', hleft⟩
    refine (ihs hsound' _ hrestriction).bind ?_
    rintro right u ⟨hsound'', hright⟩
    exact Act.ends_pure ⟨hsound'', (hleft.union hright).elim_cutBack hrestriction⟩
  | not inner ih =>
    refine (ih hsound _ hrestriction).bind ?_
    rintro set t ⟨hsound', hset⟩
    exact Act.ends_pure ⟨hsound', hset.negate⟩

theorem ends_requireRelational (filter : RelationalFilter)
    (hfilter : c.request.relationalFilter = some filter) :
    (c.requireRelational .empty filter).Ends store
      (fun constraints t => t.Sound catalog ∧ ∃ set,
        ((filter.expr.evaluate c.collectKeys none).result store).1 = .ok set ∧
          constraints.Reflects (c.relationalDemands set)) fun _ => True := by
  have hset := ends_evaluate hlists hindexed hsound filter.expr none nofun
  rw [requireRelational]
  rcases hr : (filter.expr.evaluate c.collectKeys none).result store with ⟨failure | set, t⟩
  · rw [Act.Ends, Act.result_bind_of_error hr]
    trivial
  · obtain ⟨hsound', hproper⟩ := hset.of_ok hr
    have hdemands : c.relationalDemands set =
        [⟨(filter.field = ·), (set.contains · = true)⟩] := by
      simp only [relationalDemands, hfilter]
    rw [Act.Ends, Act.result_bind_of_ok hr]
    refine ⟨hsound', set, rfl, ?_⟩
    rw [hdemands]
    exact Constraints.reflects_empty.require hproper (fun _ => Iff.rfl) fun _ => Iff.rfl

/-- One side of a unite. -/
theorem ends_uniteSide (core : String) (query : Query) (partner : String) :
    (c.uniteSide core query partner).Ends store
      (fun side t => t.Sound catalog ∧ side.2.Proper ∧
        (∃ ownField, c.request.sideFields core partner = .ok (side.1, ownField)) ∧
          ∀ key : Nat, side.2.contains key = true ↔ c.SideFinds core query partner key)
      fun _ => True := by
  have hside : c.uniteSide core query partner =
      Act.ofExcept (c.request.sideFields core partner) >>= fun fields => do
        return (fields.1, ← c.collectKeys core query fields.2) := by
    rw [uniteSide, Request.sideFields, Call.target]
    split
    · simp only [keyField, Act.ofExcept_bind, bind_assoc]
      rfl
    · simp only [keyField, Act.ofExcept_bind, bind_assoc]
      rfl
  rw [hside]
  rcases hfields : c.request.sideFields core partner with failure | ⟨field, ownField⟩
  · trivial
  · refine (ends_collectKeys hlists hindexed hsound core query ownField).bind ?_
    rintro bits t ⟨hsound', hproper, hbits⟩
    refine Act.ends_pure ⟨hsound', hproper, ⟨ownField, rfl⟩, fun key => ?_⟩
    rw [hbits, SideFinds]
    simp [← Request.sideFields_eq_ok, hfields]

variable {constraints : Constraints} {demands : List Demand} (h : constraints.Reflects demands)
include h

/-- **A unite.** -/
theorem ends_requireUnite (u : Unite) :
    (c.requireUnite constraints u).Ends store
      (fun constraints t => t.Sound catalog ∧ constraints.Reflects (demands ++ [c.uniteDemand u]))
      fun _ => True := by
  refine (ends_uniteSide hlists hindexed hsound _ _ _).bind ?_
  rintro ⟨fieldA, keysA⟩ t ⟨hsound', hproperA, ⟨ownA, hfieldA⟩, hkeysA⟩
  refine (ends_uniteSide hlists hindexed hsound' _ _ _).bind ?_
  rintro ⟨fieldB, keysB⟩ t' ⟨hsound'', hproperB, -, hkeysB⟩
  show (if fieldA = fieldB then _ else _ : Act CallStore Constraints).Ends _ _ _
  split
  · have hproper : (KeySet.plain (keysA.union keysB)).Proper := KeyBits.Proper.union hproperA hproperB
    refine Act.ends_pure ⟨hsound'', h.require hproper (fun other => ?_) fun key => ?_⟩
    · show (∃ ownField, c.request.SideFields _ _ _ _) ↔ _
      simp [← Request.sideFields_eq_ok, hfieldA]
    · rw [KeySet.contains_plain, KeyBits.contains_union, Bool.or_eq_true, hkeysA, hkeysB]
      rfl
  · trivial

/-- One query of another core, as a demand for its keys or for all other keys. -/
theorem ends_requireQuery {name field ownField : String}
    (hfield : c.request.keyField c.target name = .ok field)
    (hown : c.request.keyField name c.target = .ok ownField) (query : Query)
    {make : KeyBits → KeySet} {allows : String → JoinKey → Prop}
    (hproper : ∀ bits : KeyBits, bits.Proper → (make bits).Proper)
    (hallows : ∀ (bits : KeyBits) (key : Nat),
      (bits.contains key = true ↔ c.Finds name query ownField key) →
        ((make bits).contains key = true ↔ allows ownField key)) :
    ((c.collectKeys name query ownField) >>= fun bits =>
      (pure (constraints.require field (make bits)) : Act CallStore Constraints)).Ends store
      (fun constraints t => t.Sound catalog ∧
        constraints.Reflects (demands ++ [c.relatedDemand name allows])) fun _ => True := by
  refine (ends_collectKeys hlists hindexed hsound name query ownField).bind ?_
  rintro bits t ⟨hsound', hbits, hfinds⟩
  refine Act.ends_pure ⟨hsound', h.require (hproper bits hbits) (fun other => ?_) fun key => ?_⟩
  · have hlinked := Request.keyField_eq_ok.mp hfield
    exact ⟨fun hother => hother.unique hlinked, fun heq => heq ▸ hlinked⟩
  · rw [hallows bits key (hfinds key)]
    have hlinked := Request.keyField_eq_ok.mp hown
    exact ⟨fun hkey => ⟨ownField, hlinked, hkey⟩, fun ⟨other, hother, hkey⟩ =>
      hlinked.unique hother ▸ hkey⟩

/-- All queries of one kind of another core. -/
theorem ends_requireQueries {name field ownField : String}
    (hfield : c.request.keyField c.target name = .ok field)
    (hown : c.request.keyField name c.target = .ok ownField) (queries : List Query)
    (make : KeyBits → KeySet) (allows : Query → String → JoinKey → Prop)
    (hproper : ∀ bits : KeyBits, bits.Proper → (make bits).Proper)
    (hallows : ∀ query (bits : KeyBits) (key : Nat),
      (bits.contains key = true ↔ c.Finds name query ownField key) →
        ((make bits).contains key = true ↔ allows query ownField key)) :
    (queries.foldlM (fun constraints query => do
        return constraints.require field (make (← c.collectKeys name query ownField)))
      constraints : Act CallStore Constraints).Ends store
      (fun constraints t => t.Sound catalog ∧ constraints.Reflects
        (demands ++ queries.map fun query => c.relatedDemand name (allows query)))
      fun _ => True := by
  refine Act.ends_foldlM (fun done (constraints : Constraints) (t : CallStore) =>
    t.Sound catalog ∧ constraints.Reflects (demands ++ done.map fun query =>
      c.relatedDemand name (allows query))) ?_ [] ⟨hsound, ?_⟩
  · rintro done query - constraints t ⟨hsound', hreflects⟩
    rw [List.map_append, ← List.append_assoc]
    exact ends_requireQuery hlists hindexed hsound' hreflects hfield hown query hproper
      (hallows query)
  · simpa using h

/-- **Another core.** -/
theorem ends_requireCore (name : String) (core : CoreQuery) :
    (c.requireCore constraints name core).Ends store
      (fun constraints t => t.Sound catalog ∧
        constraints.Reflects (demands ++ c.coreDemands name core)) fun _ => True := by
  rw [requireCore, keyField, keyField, coreDemands, ← List.append_assoc, ← List.append_assoc]
  rcases hfield : c.request.keyField c.target name with failure | field
  · trivial
  rcases hown : c.request.keyField name c.target with failure | ownField
  · trivial
  have hplain : ∀ query (bits : KeyBits) (key : Nat),
      (bits.contains key = true ↔ c.Finds name query ownField key) →
        ((KeySet.plain bits).contains key = true ↔ c.Finds name query ownField key) := by
    intro query bits key hfinds
    rw [KeySet.contains_plain, hfinds]
  have hcomplement : ∀ query (bits : KeyBits) (key : Nat),
      (bits.contains key = true ↔ c.Finds name query ownField key) →
        ((KeySet.complement bits).contains key = true ↔ ¬ c.Finds name query ownField key) := by
    intro query bits key hfinds
    rw [KeySet.contains_complement, Bool.not_eq_true', ← Bool.not_eq_true, hfinds]
  have hfilters := ends_requireQueries hlists hindexed hsound h hfield hown core.filters
    .plain _ (fun _ hbits => hbits) hplain
  refine hfilters.bind fun afterFilters t hafter => ?_
  have hexcludes := ends_requireQueries hlists hindexed hafter.1 hafter.2 hfield hown core.excludes
    .complement (fun query field key => ¬ c.Finds name query field key) (fun _ hbits => hbits) hcomplement
  refine hexcludes.bind fun afterExcludes u hafter => ?_
  rcases core.query with _ | primary
  · rw [List.append_nil]
    exact Act.ends_pure hafter
  · show (if c.united.contains name then _ else _ : Act CallStore Constraints).Ends _ _ _
    simp only [c.contains_united_iff]
    split
    · rw [List.append_nil]
      exact Act.ends_pure hafter
    · exact ends_requireQuery hlists hindexed hafter.1 hafter.2 hfield hown primary
        (fun _ hbits => hbits) (hplain primary)

end Phases

section Timed

variable (hlists : c.Lists catalog) (hindexed : c.Indexed) {τ : Type} (clock : StateM τ Nat)
  {s : CallState × τ} (hsound : s.1.Sound catalog)
include hlists hindexed hsound

theorem ends_relationalPhase :
    (CallM.toAct (c.relationalPhase clock)).Ends s
      (fun all t => t.1.Sound catalog ∧ ∃ relational,
        (∀ filter, c.request.relationalFilter = some filter →
          ((filter.expr.evaluate c.collectKeys none).result s.1.toCallStore).1 = .ok relational) ∧
        all.Reflects (c.relationalDemands relational)) fun _ => True := by
  rw [relationalPhase]
  rcases hfilter : c.request.relationalFilter with _ | filter
  · refine Act.ends_pure ⟨hsound, {}, fun filter hsome => absurd hsome.symm (Option.some_ne_none filter),
      ?_⟩
    simp only [relationalDemands, hfilter]
    exact Constraints.reflects_empty
  · refine (CallM.ends_timed (ends_requireRelational hlists hindexed hsound filter hfilter)).mono ?_
      fun _ _ => trivial
    rintro all t ⟨hsound', set, hset, hreflects⟩
    exact ⟨hsound', set, fun other hother => Option.some.inj hother ▸ hset, hreflects⟩

variable {constraints : Constraints} {demands : List Demand} (h : constraints.Reflects demands)
include h

theorem ends_unitePhase :
    (c.request.unites.foldlM (fun all u => CallM.toAct
      (c.timed clock "unite" c.target (c.requireUnite all u))) constraints).Ends s
      (fun all t => t.1.Sound catalog ∧
        all.Reflects (demands ++ c.request.unites.map c.uniteDemand)) fun _ => True := by
  refine Act.ends_foldlM (fun done (all : Constraints) (t : CallState × τ) =>
    t.1.Sound catalog ∧ all.Reflects (demands ++ done.map c.uniteDemand)) ?_ [] ⟨hsound, ?_⟩
  · rintro done u - all t ⟨hsound, hreflects⟩
    rw [List.map_append, ← List.append_assoc]
    exact CallM.ends_timed (ends_requireUnite hlists hindexed hsound hreflects u)
  · simpa using h

theorem ends_corePhase :
    (c.request.otherCores.foldlM (fun all core => CallM.toAct
      (c.timed clock "core_filter" core.1 (c.requireCore all core.1 core.2))) constraints).Ends s
      (fun all t => t.1.Sound catalog ∧ all.Reflects
        (demands ++ c.request.otherCores.flatMap fun core => c.coreDemands core.1 core.2))
      fun _ => True := by
  let inv : List (String × CoreQuery) → Constraints → CallState × τ → Prop := fun done all t =>
    t.1.Sound catalog ∧ all.Reflects
      (demands ++ done.flatMap fun core => c.coreDemands core.1 core.2)
  refine Act.ends_foldlM inv ?_ [] ⟨hsound, by simpa using h⟩
  rintro done core - all t ⟨hsound, hreflects⟩
  simp only [inv, List.flatMap_append, List.flatMap_singleton, ← List.append_assoc]
  exact CallM.ends_timed (ends_requireCore hlists hindexed hsound hreflects core.1 core.2)

omit h

/-- **All phases.** The relational filter counts with the set that its expression comes to. -/
theorem ends_constraints :
    (CallM.toAct (c.constraints clock)).Ends s
      (fun all _ => ∃ relational,
        (∀ filter, c.request.relationalFilter = some filter →
          ((filter.expr.evaluate c.collectKeys none).result s.1.toCallStore).1 = .ok relational) ∧
        all.Reflects (c.demands relational)) fun _ => True := by
  rw [constraints_eq]
  simp only [CallM.toAct_bind, CallM.toAct_foldlM]
  refine (ends_relationalPhase hlists hindexed clock hsound).bind ?_
  rintro all t ⟨hsound', relational, hset, hreflects⟩
  refine (ends_unitePhase hlists hindexed clock hsound' hreflects).bind ?_
  rintro all t ⟨hsound', hreflects⟩
  exact (ends_corePhase hlists hindexed clock hsound' hreflects).mono
    (fun all t h => ⟨relational, hset, h.2⟩) fun _ _ => trivial

end Timed

end Call

/-! ### Requests on a single core -/

namespace Request

variable {r : Request}

theorem resultsFrom_mem : r.resultsFrom ∈ r.referencedCores := by
  rw [referencedCores, NameMap.mem_keys_ofList]
  simp

theorem mem_referencedCores {core : String × CoreQuery} (h : core ∈ r.cores.entries) :
    core.1 ∈ r.referencedCores := by
  have hkey : core.1 ∈ r.cores.keys := List.mem_map_of_mem h
  rw [referencedCores, NameMap.mem_keys_ofList]
  simp [hkey]

/-- A request that names one core lists no other. -/
theorem otherCores_eq_nil (h : r.referencedCores.length = 1) : r.otherCores = [] := by
  obtain ⟨only, honly⟩ := List.length_eq_one_iff.mp h
  have hresults := r.resultsFrom_mem
  rw [honly, List.mem_singleton] at hresults
  refine List.filter_eq_nil_iff.mpr fun core hcore => ?_
  have hname := mem_referencedCores hcore
  rw [honly, List.mem_singleton] at hname
  simp [hname, hresults]

end Request

/-- A call that involves a single core comes from a request that has no use for others. -/
theorem Engine.single_of_call {e : Engine} {held : Liveness} {r : Request} {c : Call}
    (hcall : e.call held r = .ok c) (hsingle : c.isFederated = false) :
    c.request.otherCores = [] ∧ c.request.unites = [] ∧ c.request.relationalFilter = none ∧
      c.request.exportKey = none := by
  obtain ⟨-, -, h⟩ := bind_eq_ok.mp hcall
  obtain ⟨snapshots, -, h⟩ := bind_eq_ok.mp h
  obtain rfl := Except.ok.inj h
  simp only [Bool.not_eq_false', Bool.and_eq_true, decide_eq_true_eq, List.isEmpty_iff,
    Option.isNone_iff_eq_none] at hsingle
  obtain ⟨⟨⟨hnames, hunites⟩, hfilter⟩, hexport⟩ := hsingle
  exact ⟨Request.otherCores_eq_nil hnames, hunites, hfilter, hexport⟩

/-- **Constraints that could be collected** stand for the demands of the request. -/
theorem Engine.reflects_constraintsPhase [PatternEngines] {catalog : Catalog} {e : Engine}
    {held : Liveness}
    {r : Request} {c : Call} (hcall : e.call held r = .ok c) (hlists : c.Lists catalog)
    (hindexed : c.Indexed) {τ : Type} (clock : StateM τ Nat) {s : CallState × τ}
    (hsound : s.1.Sound catalog) {all : Constraints}
    (hall : ((CallM.toAct (c.constraintsPhase clock)).result s).1 = .ok all) :
    ∃ relational : KeySet,
      (∀ filter, c.request.relationalFilter = some filter →
        ((filter.expr.evaluate c.collectKeys none).result s.1.toCallStore).1 = .ok relational) ∧
      all.Reflects (c.demands relational) := by
  cases hfederated : c.isFederated with
  | true =>
    rw [Call.constraintsPhase, hfederated, if_pos rfl] at hall
    exact (Call.ends_constraints hlists hindexed clock hsound).of_ok (Prod.ext hall rfl)
  | false =>
    rw [Call.constraintsPhase, hfederated, if_neg Bool.false_ne_true] at hall
    obtain rfl : Constraints.empty = all := Except.ok.inj hall
    obtain ⟨hcores, hunites, hfilter, -⟩ := Engine.single_of_call hcall hfederated
    refine ⟨{}, fun filter hsome =>
      absurd (hsome.symm.trans hfilter) (Option.some_ne_none filter), ?_⟩
    rw [Call.demands_eq, Call.relationalDemands, hcores, hunites, hfilter]
    exact Constraints.reflects_empty

/-! ### At any time of a session -/

namespace Session

/-- **The constraints mean what the request declares.** Whatever a session has done before, if the
constraints of a request can be collected then there is a set for just the fields of the result core
that some demand is on, and it has just the keys that all demands on the field allow. -/
theorem constraints_reflect [PatternEngines] (settings : Settings) (history : List Event)
    (held : Liveness)
    (r : Request) {c : Call} (hcall : (run settings history).engine.call held r = .ok c) {τ : Type}
    (schedules : List Schedule) (clock : StateM τ Nat) (now : τ) {all : Constraints}
    (hall : ((CallM.toAct (c.constraintsPhase clock)).result
      ((run settings history).beginning schedules now)).1 = .ok all) :
    ∃ relational : KeySet,
      (∀ filter, r.relationalFilter = some filter →
        ((filter.expr.evaluate c.collectKeys none).result
          ((run settings history).beginning schedules now).1.toCallStore).1 = .ok relational) ∧
      all.Reflects (c.demands relational) := by
  obtain ⟨catalog, hrecorded⟩ := exists_recorded settings history
  obtain ⟨rfl, -, hsnapshots⟩ := Engine.of_call_eq_ok hcall
  have hindexed : c.Indexed := by
    intro name snapshot hfind placed hp
    obtain ⟨core, hcore, rfl⟩ := Engine.of_snapshots_eq_ok hsnapshots hfind
    obtain ⟨own, -, rfl⟩ := of_find?_engine hcore
    obtain ⟨segment, -, heq⟩ := List.mem_map.mp (mem_placeFrom hp)
    exact ⟨segment, heq.symm⟩
  exact Engine.reflects_constraintsPhase hcall (hrecorded.engine.call hcall) hindexed clock
    (s := (run settings history).beginning schedules now) hrecorded.caches hall

/-- Books and their copies in stock, after the copies were searched once. -/
def stockHistory : List Event :=
  let doc := fun (id : String) (key : Int64) (kind : String) =>
    { id, fields := .ofList [("K", .int key), ("kind", .text kind)] : Document }
  [.createCore "books", .addSegment 0 [doc "b1" 1 "new", doc "b2" 2 "new"], .createCore "stock",
    .addSegment 1 [doc "s1" 1 "sold", doc "s2" 2 "worn"], .takeSnapshot 1,
    .collectKeys 0 (.term "kind" "sold") "K" 2 []]

/-- A complement, a unite with the result core itself and an exclusion, all on one field. -/
def stockRequest : Request :=
  ((((Request.ofCore "books").exclude "stock" (.term "kind" "sold")).join "books" "K" "stock" "K").unite
    "books" .all "stock" .all).relational "K" (.not (.leaf "stock" (.term "kind" "lost") "K"))

/-- The unite allows keys 1 and 2, and the exclusion takes key 1 back. -/
theorem constraints_reflect_stock :
    let session := run (.standard 2) stockHistory
    ∃ c all set, session.engine.call (fun _ => false) stockRequest = .ok c ∧
      ((CallM.toAct (c.constraintsPhase (pure 0 : StateM Unit Nat))).result
        (session.beginning [] ())).1 = .ok all ∧
      all.sets.find? "K" = some set ∧ set.contains 0 = false ∧ set.contains 1 = false ∧
      set.contains 2 = true ∧ set.contains 3 = false ∧
      ∃ relational : KeySet,
        (∀ filter, stockRequest.relationalFilter = some filter →
          ((filter.expr.evaluate c.collectKeys none).result
            (session.beginning [] ()).1.toCallStore).1 = .ok relational) ∧
        all.Reflects (c.demands relational) := by
  intro session
  have hsucceeds : (match session.engine.call (fun _ => false) stockRequest with
      | .ok c => match ((CallM.toAct (c.constraintsPhase (pure 0 : StateM Unit Nat))).result
          (session.beginning [] ())).1 with
        | .ok all => ((all.sets.find? "K").map fun set => (List.range 4).map set.contains)
        | .error _ => none
      | .error _ => none) = some [false, false, true, false] := by decide +kernel
  rcases hcall : session.engine.call (fun _ => false) stockRequest with failure | c
  · simp [hcall] at hsucceeds
  rcases hall : ((CallM.toAct (c.constraintsPhase (pure 0 : StateM Unit Nat))).result
      (session.beginning [] ())).1 with failure | all
  · simp [hcall, hall] at hsucceeds
  · simp only [hcall, hall, Option.map_eq_some_iff] at hsucceeds
    obtain ⟨set, hset, hkeys⟩ := hsucceeds
    simp only [List.range, List.range.loop, List.map_cons, List.map_nil, List.cons.injEq] at hkeys
    exact ⟨c, all, set, rfl, hall, hset, hkeys.1, hkeys.2.1, hkeys.2.2.1, hkeys.2.2.2.1,
      constraints_reflect _ _ _ _ hcall _ _ _ hall⟩

end Session

end FederatedSearch
