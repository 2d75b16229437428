import FederatedSearch.Proofs.Engine.Answer
import FederatedSearch.Proofs.Query.Equivalent
import FederatedSearch.Proofs.Relation.Reading

/-!
# Calls that see the same

Two calls with the same snapshots collect the same keys, whatever their caches hold and however they
spread segments over groups, though not always in the same bits. So the constraints of two calls that
differ only in such ways, or in the window of the page, are alike, and they fail together.

The relational filter needs an argument of its own, since an expression is evaluated under sets that
were collected before: if these are alike then so are the queries that are narrowed by them, and the
keys collected for those.

## Main definitions

* `Call.vary` — a call with other settings, other memories and another window

## Main results

* `RelationalExpr.mirrors_evaluate` — expressions come to sets that are alike
* `Call.call_page_eq_ok`, `Call.call_vary` — where variations of a call come from
* `Call.mirrors_constraintsPhase` — and so do the constraints of a call and a variation of it
-/

namespace FederatedSearch

section Mirrors

variable {α β τ τ' : Type} {spared : Failure → Prop} {inv inv' : CallStore → Prop} {rel : α → β → Prop}

/-- Phases come to what their searches come to. -/
theorem CallM.mirrors_timed {a : Act CallStore α} {b : Act CallStore β}
    (h : Act.Mirrors spared inv inv' rel a b) (c c' : Call) (clock : StateM τ Nat)
    (clock' : StateM τ' Nat) (phase core phase' core' : String) :
    Act.Mirrors spared (fun s => inv s.1.toCallStore) (fun t => inv' t.1.toCallStore) rel
      (CallM.toAct (c.timed clock phase core a)) (CallM.toAct (c'.timed clock' phase' core' b)) := by
  intro s t hs ht
  obtain ⟨timings, s', hr⟩ := CallM.result_timed c clock phase core a s
  obtain ⟨timings', t', hr'⟩ := CallM.result_timed c' clock' phase' core' b t
  rw [hr, hr']
  exact h s.1.toCallStore t.1.toCallStore hs ht

end Mirrors

/-! ### Expressions -/

/-- Bits with the same keys. -/
def AlikeBits (bits bits' : KeyBits) : Prop := (KeySet.plain bits).Alike (KeySet.plain bits')

namespace KeySet.Alike

variable {keys keys' set set' : KeySet} {restriction restriction' : Option KeySet}

theorem cutBack (hkeys : keys.Alike keys') (hset : set.Alike set') :
    (keys.cutBack set).Alike (keys'.cutBack set') := by
  rw [KeySet.cutBack, KeySet.cutBack, hset.inverted_eq]
  split
  · exact hkeys.meet hset
  · exact hset

theorem allowed (hset : set.Alike set') (h : Option.Rel KeySet.Alike restriction restriction') :
    (restriction.elim set set.meet).Alike (restriction'.elim set' set'.meet) := by
  cases h with
  | none => exact hset
  | some hkeys => exact hset.meet hkeys

theorem elim_cutBack (hset : set.Alike set')
    (h : Option.Rel KeySet.Alike restriction restriction') :
    (restriction.elim set (·.cutBack set)).Alike (restriction'.elim set' (·.cutBack set')) := by
  cases h with
  | none => exact hset
  | some hkeys => exact hkeys.cutBack hset

end KeySet.Alike

variable [PatternEngines]

/-- **Expressions come to sets that are alike** if equivalent queries have the same keys collected. -/
theorem RelationalExpr.mirrors_evaluate {σ τ : Type} {spared : Failure → Prop} {inv : σ → Prop}
    {inv' : τ → Prop}
    {collect : String → Query → String → Act σ KeyBits}
    {collect' : String → Query → String → Act τ KeyBits} (e : RelationalExpr)
    (h : ∀ core ∈ e.cores, ∀ (q r : Query) (field : String), q.Equivalent r →
      Act.Mirrors spared inv inv' AlikeBits (collect core q field) (collect' core r field))
    {restriction restriction' : Option KeySet}
    (hrestriction : Option.Rel KeySet.Alike restriction restriction') :
    Act.Mirrors spared inv inv' KeySet.Alike (e.evaluate collect restriction)
      (e.evaluate collect' restriction') := by
  induction e generalizing restriction restriction' with
  | leaf core query field =>
    have hleaf := h core (List.mem_singleton_self _)
    cases hrestriction with
    | none => exact (hleaf _ _ field (.refl query)).bind fun _ _ hbits => Act.mirrors_pure hbits
    | some hkeys =>
      have hquery := Query.equivalent_joinKeys field hkeys.contains_eq
      exact (hleaf _ _ field (.withFilter query hquery)).bind
        fun _ _ hbits => Act.mirrors_pure hbits
  | and first second ihf ihs =>
    rw [evaluate_and_eq, evaluate_and_eq]
    refine (ihf (fun core hcore => h core (List.mem_append_left _ hcore)) hrestriction).bind
      fun left left' hleft => ?_
    have hallowed := hleft.allowed hrestriction
    exact (ihs (fun core hcore => h core (List.mem_append_right _ hcore)) (.some hallowed)).bind
      fun right right' hright => Act.mirrors_pure (hallowed.cutBack hright)
  | or first second ihf ihs =>
    rw [evaluate_or_eq, evaluate_or_eq]
    refine (ihf (fun core hcore => h core (List.mem_append_left _ hcore)) hrestriction).bind
      fun left left' hleft => ?_
    exact (ihs (fun core hcore => h core (List.mem_append_right _ hcore)) hrestriction).bind
      fun right right' hright => Act.mirrors_pure ((hleft.union hright).elim_cutBack hrestriction)
  | not inner ih =>
    exact (ih h hrestriction).bind fun set set' hset => Act.mirrors_pure hset.negate

namespace Call

/-! ### Collected keys -/

section Collect

variable {spared : Failure → Prop} {catalog catalog' : Catalog} {c c' : Call} (hlists : c.Lists catalog)
  (hlists' : c'.Lists catalog')
include hlists hlists'

/-- Equivalent queries find the same keys in a core of which both calls have the same snapshot. -/
theorem mirrors_collectKeys {core : String} (hsame : c.snapshot core = c'.snapshot core)
    {q r : Query} (hquery : q.Equivalent r) (field : String) :
    Act.Mirrors spared (CallStore.Sound catalog) (CallStore.Sound catalog') AlikeBits
      (c.collectKeys core q field) (c'.collectKeys core r field) := by
  rw [collectKeys, collectKeys, ← hsame]
  rcases hsnapshot : c.snapshot core with failure | snapshot
  · exact Act.mirrors_ofExcept (.error failure failure)
  have hcannot : (∃ placed ∈ snapshot.segments, ¬ placed.segment.Answers r field) →
      ∃ placed ∈ snapshot.segments, ¬ placed.segment.Answers q field := by
    rintro ⟨placed, hmem, hnot⟩
    exact ⟨placed, hmem, fun h => hnot ((placed.segment.answers_iff_of_equivalent hquery field).mp h)⟩
  refine Act.mirrors_of_comes
    (CallStore.comes_onCaches fun schedule =>
      Caches.comes_collectKeys c.workshop schedule (hlists.snapshot hsnapshot) q field)
    (CallStore.comes_onCaches fun schedule =>
      Caches.comes_collectKeys c'.workshop schedule (hlists'.snapshot (hsame ▸ hsnapshot)) r field)
    (fun bits bits' hbits hbits' => (hbits.of_equivalent hquery).alike hbits')
    (fun bits _ hbits hnot => ?_) fun bits _ hbits hnot => ?_
  · obtain ⟨placed, hmem, hnot⟩ := hcannot hnot
    exact absurd (hbits.answers placed hmem) hnot
  · obtain ⟨placed, hmem, hnot⟩ := hnot
    exact absurd ((placed.segment.answers_iff_of_equivalent hquery field).mpr
      (hbits.answers placed hmem)) hnot

end Collect

/-! ### Variations of a call -/

/-- The same call with other settings, other segments in use and another window. -/
def vary (c : Call) (settings : Settings) (live : Liveness) (start stop : UInt64) : Call :=
  { c with settings, live, request := c.request.page start stop }

omit [PatternEngines] in
/-- **Engines with the same cores** set up variations of one call for requests that differ in their
windows. -/
theorem call_page_eq_ok {e e' : Engine} (hcores : e'.cores = e.cores) {held held' : Liveness}
    {r : Request} {c c' : Call} (h : e.call held r = .ok c) {start stop : UInt64} :
    e'.call held' (r.page start stop) = .ok c' ↔ (r.page start stop).validate = .ok () ∧
      c' = c.vary e'.settings (fun id => e'.holds id || held' id) start stop := by
  obtain ⟨-, snapshots, hsnapshots, rfl⟩ := Engine.call_eq_ok.mp h
  have hsame : e'.snapshots (r.page start stop).referencedCores = .ok snapshots := by
    rw [← hsnapshots, Engine.snapshots, Engine.snapshots, hcores]
    rfl
  constructor
  · intro h'
    obtain ⟨hvalid, snapshots', hsnapshots', rfl⟩ := Engine.call_eq_ok.mp h'
    obtain rfl : snapshots = snapshots' := Except.ok.inj (hsame.symm.trans hsnapshots')
    rw [vary, Request.isFederated_page]
    exact ⟨hvalid, rfl⟩
  · rintro ⟨hvalid, rfl⟩
    refine Engine.call_eq_ok.mpr ⟨hvalid, snapshots, hsame, ?_⟩
    rw [vary, Request.isFederated_page]

omit [PatternEngines] in
/-- They set up variations of one call for the same request. -/
theorem call_vary {e e' : Engine} (hcores : e'.cores = e.cores) {held : Liveness} (held' : Liveness)
    {r : Request} {c : Call} (h : e.call held r = .ok c) :
    e'.call held' r =
      .ok (c.vary e'.settings (fun id => e'.holds id || held' id) r.start r.stop) :=
  (call_page_eq_ok hcores h).mpr ⟨(Engine.call_eq_ok.mp h).1, rfl⟩

section Vary

variable {spared : Failure → Prop} {catalog catalog' : Catalog} {c : Call} {settings : Settings}
  {live : Liveness} {start stop : UInt64} (hlists : c.Lists catalog)
  (hlists' : (c.vary settings live start stop).Lists catalog')
include hlists hlists'

theorem mirrors_uniteSide (core : String) (query : Query) (partner : String) :
    Act.Mirrors spared (CallStore.Sound catalog) (CallStore.Sound catalog')
      (fun side side' => side.1 = side'.1 ∧ AlikeBits side.2 side'.2)
      (c.uniteSide core query partner)
      ((c.vary settings live start stop).uniteSide core query partner) := by
  have hcollect : ∀ field, Act.Mirrors spared (CallStore.Sound catalog) (CallStore.Sound catalog') AlikeBits
      (c.collectKeys core query field)
      ((c.vary settings live start stop).collectKeys core query field) :=
    fun field => mirrors_collectKeys hlists hlists' rfl (.refl query) field
  by_cases hown : core = c.target
  · have hown' : core = (c.vary settings live start stop).target := hown
    rw [uniteSide, uniteSide, if_pos hown, if_pos hown']
    refine (Act.mirrors_ofExcept_self _).bind ?_
    rintro field _ rfl
    exact (hcollect field).bind fun bits bits' hbits => Act.mirrors_pure ⟨rfl, hbits⟩
  · have hown' : ¬ core = (c.vary settings live start stop).target := hown
    rw [uniteSide, uniteSide, if_neg hown, if_neg hown']
    refine (Act.mirrors_ofExcept_self _).bind ?_
    rintro field _ rfl
    refine (Act.mirrors_ofExcept_self _).bind ?_
    rintro ownField _ rfl
    exact (hcollect ownField).bind fun bits bits' hbits => Act.mirrors_pure ⟨rfl, hbits⟩

theorem mirrors_requireRelational (filter : RelationalFilter) :
    Act.Mirrors spared (CallStore.Sound catalog) (CallStore.Sound catalog') Constraints.Alike
      (c.requireRelational .empty filter)
      ((c.vary settings live start stop).requireRelational .empty filter) := by
  refine (filter.expr.mirrors_evaluate (fun core _ q r field hquery => ?_) .none).bind
    fun set set' hset => Act.mirrors_pure (Constraints.alike_empty.require filter.field hset)
  exact mirrors_collectKeys hlists hlists' rfl hquery field

variable {all all' : Constraints} (h : all.Alike all')
include h

theorem mirrors_requireUnite (u : Unite) :
    Act.Mirrors spared (CallStore.Sound catalog) (CallStore.Sound catalog') Constraints.Alike
      (c.requireUnite all u) ((c.vary settings live start stop).requireUnite all' u) := by
  refine (mirrors_uniteSide hlists hlists' u.coreA u.queryA u.coreB).bind ?_
  rintro ⟨fieldA, keysA⟩ ⟨_, keysA'⟩ ⟨rfl, hkeysA⟩
  refine (mirrors_uniteSide hlists hlists' u.coreB u.queryB u.coreA).bind ?_
  rintro ⟨fieldB, keysB⟩ ⟨_, keysB'⟩ ⟨rfl, hkeysB⟩
  by_cases hsame : fieldA = fieldB
  · simp only [hsame, if_true]
    exact Act.mirrors_pure (h.require fieldB (hkeysA.union hkeysB))
  · simp only [hsame, if_false]
    exact Act.mirrors_ofExcept (.error _ _)

/-- One query of another core, as a demand for its keys or for all other keys. -/
theorem mirrors_requireQuery {make : KeyBits → KeySet}
    (hmake : ∀ bits bits', AlikeBits bits bits' → (make bits).Alike (make bits'))
    (name field ownField : String) (query : Query) :
    Act.Mirrors spared (CallStore.Sound catalog) (CallStore.Sound catalog') Constraints.Alike
      (c.collectKeys name query ownField >>= fun bits =>
        (pure (all.require field (make bits)) : Act CallStore Constraints))
      ((c.vary settings live start stop).collectKeys name query ownField >>= fun bits =>
        (pure (all'.require field (make bits)) : Act CallStore Constraints)) :=
  (mirrors_collectKeys hlists hlists' rfl (.refl query) ownField).bind
    fun _ _ hbits => Act.mirrors_pure (h.require field (hmake _ _ hbits))

theorem mirrors_requireCore (name : String) (core : CoreQuery) :
    Act.Mirrors spared (CallStore.Sound catalog) (CallStore.Sound catalog') Constraints.Alike
      (c.requireCore all name core) ((c.vary settings live start stop).requireCore all' name core) := by
  have hcomplement : ∀ bits bits' : KeyBits, AlikeBits bits bits' →
      (KeySet.complement bits).Alike (.complement bits') := fun _ _ hbits => hbits.negate
  rw [requireCore, requireCore]
  refine (Act.mirrors_ofExcept_self _).bind ?_
  rintro field _ rfl
  refine (Act.mirrors_ofExcept_self _).bind ?_
  rintro ownField _ rfl
  refine (Act.Mirrors.foldlM (fun query _ all all' h =>
    mirrors_requireQuery hlists hlists' h (fun _ _ hbits => hbits) name field ownField query) h).bind
      fun all all' h => ?_
  refine (Act.Mirrors.foldlM (fun query _ all all' h =>
    mirrors_requireQuery hlists hlists' h hcomplement name field ownField query) h).bind
      fun all all' h => ?_
  cases core.query with
  | none => exact Act.mirrors_pure h
  | some primary =>
    have hunited : (c.vary settings live start stop).united = c.united := rfl
    simp only [hunited]
    split
    · exact Act.mirrors_pure h
    · exact mirrors_requireQuery hlists hlists' h (fun _ _ hbits => hbits) name field ownField primary

omit h in
/-- **The constraints** of a call and a variation of it are alike, and they fail together. -/
theorem mirrors_constraintsPhase {τ τ' : Type} (clock : StateM τ Nat) (clock' : StateM τ' Nat) :
    Act.Mirrors spared (fun s => s.1.Sound catalog) (fun t => t.1.Sound catalog')
      Constraints.Alike (CallM.toAct (c.constraintsPhase clock))
      (CallM.toAct ((c.vary settings live start stop).constraintsPhase clock')) := by
  have hfederated : (c.vary settings live start stop).isFederated = c.isFederated := rfl
  rw [constraintsPhase, constraintsPhase, hfederated]
  split
  · rw [constraints_eq, constraints_eq]
    simp only [CallM.toAct_bind, CallM.toAct_foldlM]
    have hrelational : Act.Mirrors spared (fun s => s.1.Sound catalog)
        (fun t => t.1.Sound catalog') Constraints.Alike
        (CallM.toAct (c.relationalPhase clock))
        (CallM.toAct ((c.vary settings live start stop).relationalPhase clock')) := by
      have hfilter : (c.vary settings live start stop).request.relationalFilter =
          c.request.relationalFilter := rfl
      rw [relationalPhase, relationalPhase, hfilter]
      cases c.request.relationalFilter with
      | none => exact Act.mirrors_pure Constraints.alike_empty
      | some filter =>
        exact CallM.mirrors_timed (mirrors_requireRelational hlists hlists' filter) _ _ _ _ _ _ _ _
    refine hrelational.bind fun all all' h => ?_
    refine (Act.Mirrors.foldlM (fun u _ all all' h => CallM.mirrors_timed
      (mirrors_requireUnite hlists hlists' h u) _ _ _ _ _ _ _ _) h).bind fun all all' h => ?_
    exact Act.Mirrors.foldlM (fun core _ all all' h => CallM.mirrors_timed
      (mirrors_requireCore hlists hlists' h core.1 core.2) _ _ _ _ _ _ _ _) h
  · exact Act.mirrors_pure Constraints.alike_empty

end Vary

end Call

end FederatedSearch
