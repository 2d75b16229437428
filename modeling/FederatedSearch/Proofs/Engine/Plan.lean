import FederatedSearch.Proofs.Engine.MainSearch

/-!
# The plan of a call

Before the main search a call settles what to search for: the query narrowed by the constraints, the
fields whose keys are handed on, the sort clauses and the scores of the rank queries. The main search
and everything after it follow that plan.

Only the constraints are collected with the help of remembered key sets. All other phases search
without them, so that what they come to can be written down without any state.

## Main definitions

* `Call.planPhase` — the phases before the main search
* `Call.clauseOf`, `Call.rankOf`, `Call.relatedFacetsOf` — what the other phases come to
* `Call.Grounded` — the snapshots of a call are those of cores that can be read
* `Call.Explains` — how a response came about

## Main results

* `Call.respond_eq_plan` — a call makes its plan and follows it
* `Call.Grounded.exists_explains` — every response came about in this way
-/

namespace FederatedSearch

namespace CallM

/-- A phase comes to what its searches come to. -/
theorem yields_timed {α τ : Type} {inv : CallStore → Prop} {a : Act CallStore α} {r : Except Failure α}
    (h : Act.Yields inv a r) (c : Call) (clock : StateM τ Nat) (phase core : String) :
    Act.Yields (fun s => inv s.1.toCallStore) (toAct (c.timed clock phase core a)) r := by
  intro s hs
  obtain ⟨timings, t, hr⟩ := result_timed c clock phase core a s
  rw [hr]
  exact h s.1.toCallStore hs

end CallM

namespace Call

open Collector

variable (c : Call)

/-! ### What the phases come to -/

variable [PatternEngines]

/-- The sort clause for a field of another core. -/
def relatedClauseOf (core : String) (f : SortField) : Except Failure SortClause := do
  let ownField ← c.request.keyField core c.target
  let table ← c.snapshot core >>= fun snapshot =>
    (firstDocs ownField).outcome c.workshop snapshot (c.request.core core).fullQuery
  let keyField ← c.request.keyField c.target core
  SortClause.related? f keyField table (← c.snapshot core)

/-- The sort clause for a field. -/
def clauseOf (f : SortField) : Except Failure SortClause :=
  match f.core with
  | some other => if other = c.target then SortClause.own? f else c.relatedClauseOf other f
  | none => SortClause.own? f

/-- The scores of a rank query. -/
def rankOf (core : String) (query : Query) : Except Failure RankSource := do
  let ownField ← c.request.keyField core c.target
  let table ← c.snapshot core >>= fun snapshot =>
    (rankScores ownField).outcome c.workshop snapshot query
  return ⟨← c.request.keyField c.target core, table⟩

/-- The facets of another core, by the keys that the main search handed on. -/
def relatedFacetsOf (main : MainResult) (name : String) (core : CoreQuery) :
    Except Failure (List Facet) := do
  let field ← c.request.keyField c.target name
  let ownField ← c.request.keyField name c.target
  c.snapshot name >>= fun snapshot =>
    (faceting core.facets).outcome c.workshop snapshot (core.fullQuery.withFilter
      (.joinKeys ownField (.plain ((main.keys.lookup field).getD .empty))))

/-- The other cores with facets. -/
def facetCores : List (String × CoreQuery) := c.request.otherCores.filter (!·.2.facets.isEmpty)

/-- The facets of all other cores, if these are involved. -/
def facetsOf (main : MainResult) : Except Failure (List (String × List Facet)) :=
  if c.isFederated then
    c.facetCores.mapM fun e => do return (e.1, ← c.relatedFacetsOf main e.1 e.2)
  else pure []

/-- The fields to hand on, if other cores are involved. -/
def fieldsOf : Except Failure (List String) := if c.isFederated then c.handedFields else pure []

section Yields

variable {c} {catalog : Catalog} (hlists : c.Lists catalog)
include hlists

theorem yields_relatedClause (core : String) (f : SortField) :
    Act.Yields (CallStore.Sound catalog) (c.relatedClause core f) (c.relatedClauseOf core f) :=
  (Act.yields_ofExcept _).bind fun ownField =>
    (yields_search hlists (quiet_firstDocs ownField) (modest_firstDocs ownField) core _).bind fun _ =>
      (Act.yields_ofExcept _).bind fun _ => (Act.yields_ofExcept _).bind fun _ => Act.yields_ofExcept _

theorem yields_rankSource (core : String) (query : Query) :
    Act.Yields (CallStore.Sound catalog) (c.rankSource core query) (c.rankOf core query) :=
  (Act.yields_ofExcept _).bind fun ownField =>
    (yields_search hlists (quiet_rankScores ownField) (modest_rankScores ownField) core query).bind fun _ =>
      (Act.yields_ofExcept _).bind fun _ => Act.yields_pure _

theorem yields_relatedFacets (name : String) (core : CoreQuery) (main : MainResult) :
    Act.Yields (CallStore.Sound catalog) (c.relatedFacets name core main)
      (c.relatedFacetsOf main name core) :=
  (Act.yields_ofExcept _).bind fun _ => (Act.yields_ofExcept _).bind fun _ =>
    yields_search hlists (quiet_faceting core.facets) (modest_faceting core.facets) name _

variable {τ : Type} (clock : StateM τ Nat)

theorem yields_sortClauses :
    Act.Yields (fun s => s.1.Sound catalog) (CallM.toAct (c.sortClauses clock))
      (c.request.sort.mapM c.clauseOf) := by
  rw [Call.sortClauses, CallM.toAct_mapM]
  refine Act.Yields.mapM fun f _ => ?_
  rw [clauseOf]
  rcases f.core with _ | other
  · exact Act.yields_ofExcept _
  · by_cases hown : other = c.target
    · simp only [hown, if_true]
      exact Act.yields_ofExcept _
    · simp only [hown, if_false]
      exact CallM.yields_timed (yields_relatedClause hlists other f) _ _ _ _

theorem yields_rankSources :
    Act.Yields (fun s => s.1.Sound catalog) (CallM.toAct (c.rankSources clock))
      (c.request.rankQueries.entries.mapM fun e => c.rankOf e.1 e.2) := by
  rw [Call.rankSources, CallM.toAct_mapM]
  exact Act.Yields.mapM fun e _ => CallM.yields_timed (yields_rankSource hlists e.1 e.2) _ _ _ _

theorem yields_facetsPhase (main : MainResult) :
    Act.Yields (fun s => s.1.Sound catalog) (CallM.toAct (c.facetsPhase clock main))
      (c.facetsOf main) := by
  rw [facetsPhase, facetsOf]
  split
  · rw [Call.allRelatedFacets, CallM.toAct_mapM]
    refine Act.Yields.mapM fun e _ => ?_
    rw [CallM.toAct_bind]
    exact (CallM.yields_timed (yields_relatedFacets hlists e.1 e.2 main) _ _ _ _).bind fun _ =>
      Act.yields_pure _
  · exact Act.yields_pure _

omit hlists in
theorem yields_fieldsPhase :
    Act.Yields (fun s => s.1.Sound catalog)
      (CallM.toAct (c.fieldsPhase : CallM (StateM τ) (List String))) c.fieldsOf := by
  rw [fieldsPhase, fieldsOf]
  split
  · exact Act.yields_ofExcept _
  · exact Act.yields_pure _

end Yields

/-! ### Making a plan and following it -/

/-- The query of the result core, narrowed by constraints. -/
def narrowed (constraints : Constraints) : Query :=
  constraints.narrow (c.request.core c.target).fullQuery

section Phases

variable {m : Type → Type} [Monad m] [LawfulMonad m] (clock : m Nat)

/-- The phases before the main search. -/
def planPhase : CallM m Plan :=
  c.constraintsPhase clock >>= fun constraints =>
    c.fieldsPhase >>= fun fields =>
      c.sortClauses clock >>= fun clauses =>
        c.rankSources clock >>= fun ranks => pure ⟨c.narrowed constraints, fields, clauses, ranks⟩

/-- The main search by a plan. -/
def mainPhase (plan : Plan) : CallM m MainResult :=
  c.timed clock "main" c.target (c.pageSearch plan.query plan.clauses plan.ranks plan.fields)

/-- **A call makes its plan and follows it.** -/
theorem respond_eq_plan :
    c.respond clock = c.planPhase clock >>= fun plan => c.mainPhase clock plan >>= fun main =>
      c.facetsPhase clock main >>= fun related =>
        CallM.ofExcept (c.page main.hits) >>= fun hits =>
          get >>= fun state => pure (c.answer main related hits state.timings) := by
  rw [respond_eq]
  simp only [planPhase, bind_assoc, pure_bind]
  rfl

end Phases

/-- The snapshots of the call are those of cores in the catalog that can be read, and that of the
result core is one of them. -/
structure Grounded (catalog : Catalog) : Prop where
  lists : c.Lists catalog
  taken : c.Taken
  target : ∃ snapshot, c.snapshot c.target = .ok snapshot

/-- How a response came about. -/
structure Explains (plan : Plan) (segments : List Placed) (main : MainResult)
    (related : List (String × List Facet)) (response : Response) : Prop where
  fields : c.fieldsOf = .ok plan.fields
  clauses : c.request.sort.mapM c.clauseOf = .ok plan.clauses
  ranks : (c.request.rankQueries.entries.mapM fun e => c.rankOf e.1 e.2) = .ok plan.ranks
  describes : c.Describes plan segments main
  facets : c.facetsOf main = .ok related
  page : c.page main.hits = .ok response.hits
  answer : response = c.answer main related response.hits response.timings

section Grounded

variable {c} {catalog : Catalog} (h : c.Grounded catalog)
include h

/-- The clauses of a call look at cores that can be read. -/
theorem Grounded.readable_of_clauseOf {f : SortField} {clause : SortClause}
    (hclause : c.clauseOf f = .ok clause) : clause.Readable := by
  have hown : SortClause.own? f = .ok clause → clause.Readable := by
    intro hclause keyField table other hsource
    rw [SortClause.own?] at hclause
    split at hclause
    · exact nomatch hclause
    · obtain rfl := Except.ok.inj hclause
      exact nomatch hsource
  rw [clauseOf] at hclause
  split at hclause
  · rename_i core _
    split at hclause
    · exact hown hclause
    · obtain ⟨ownField, -, hclause⟩ := bind_eq_ok.mp hclause
      obtain ⟨table, -, hclause⟩ := bind_eq_ok.mp hclause
      obtain ⟨keyField, -, hclause⟩ := bind_eq_ok.mp hclause
      obtain ⟨snapshot, hsnapshot, hclause⟩ := bind_eq_ok.mp hclause
      rw [SortClause.related?] at hclause
      split at hclause
      · exact nomatch hclause
      · obtain rfl := Except.ok.inj hclause
        intro keyField table other hsource
        obtain ⟨-, -, rfl⟩ := SortSource.related.inj hsource
        exact h.taken.indexed core _ (snapshot_eq_ok hsnapshot)
  · exact hown hclause

theorem Grounded.readable {clauses : List SortClause}
    (hclauses : c.request.sort.mapM c.clauseOf = .ok clauses) :
    ∀ clause ∈ clauses, clause.Readable := by
  intro clause hmem
  obtain ⟨f, -, hf⟩ := mem_of_mapM_eq_ok hclauses hmem
  exact h.readable_of_clauseOf hf

variable {τ : Type} (clock : StateM τ Nat)

/-- The main search by a plan. -/
theorem Grounded.comes_mainPhase {plan : Plan}
    (hclauses : c.request.sort.mapM c.clauseOf = .ok plan.clauses) {snapshot : Snapshot}
    (hsnapshot : c.snapshot c.target = .ok snapshot) :
    (CallM.toAct (c.mainPhase clock plan)).Comes (fun s => s.1.Sound catalog)
      (fun main => plan.Feasible snapshot.segments ∧ c.Describes plan snapshot.segments main)
      fun failure => c.GivesUp failure ∨ ¬ plan.Feasible snapshot.segments :=
  CallM.comes_timed (comes_pageSearch h.lists h.taken hsnapshot plan (h.readable hclauses)) c clock _ _

variable {s : CallState × τ} (hsound : s.1.Sound catalog)
include hsound

/-- The plan of a call. Its query is narrowed by the constraints, and all else is known. -/
theorem Grounded.ends_planPhase :
    (CallM.toAct (c.planPhase clock)).Ends s
      (fun plan t => t.1.Sound catalog ∧
        (∃ all, ((CallM.toAct (c.constraintsPhase clock)).result s).1 = .ok all ∧
          plan.query = c.narrowed all) ∧
        c.fieldsOf = .ok plan.fields ∧ c.request.sort.mapM c.clauseOf = .ok plan.clauses ∧
        (c.request.rankQueries.entries.mapM fun e => c.rankOf e.1 e.2) = .ok plan.ranks)
      fun _ => True := by
  have hconstraints : (CallM.toAct (c.constraintsPhase clock)).Ends s
      (fun all t => t.1.Sound catalog ∧
        ((CallM.toAct (c.constraintsPhase clock)).result s).1 = .ok all) fun _ => True := by
    have hkeeps := constraintsPhase_keeps h.lists clock s hsound
    refine Act.ends_of_forall (fun all t hr => ?_) fun _ _ _ => trivial
    rw [hr] at hkeeps ⊢
    exact ⟨hkeeps, rfl⟩
  simp only [planPhase, CallM.toAct_bind]
  refine hconstraints.bind ?_
  rintro all t ⟨ht, hall⟩
  refine ((yields_fieldsPhase (c := c)).comes.ends ht).bind ?_
  rintro fields t ⟨ht, hfields⟩
  refine ((yields_sortClauses h.lists clock).comes.ends ht).bind ?_
  rintro clauses t ⟨ht, hclauses⟩
  refine ((yields_rankSources h.lists clock).comes.ends ht).bind ?_
  rintro ranks t ⟨ht, hranks⟩
  exact Act.ends_pure ⟨ht, ⟨all, hall, rfl⟩, hfields, hclauses, hranks⟩

/-- **Every response** came about by a plan. -/
theorem Grounded.exists_explains {response : Response}
    (hresponse : ((CallM.toAct (c.respond clock)).result s).1 = .ok response) :
    ∃ plan snapshot main related,
      ((CallM.toAct (c.planPhase clock)).result s).1 = .ok plan ∧
      (∃ all, ((CallM.toAct (c.constraintsPhase clock)).result s).1 = .ok all ∧
        plan.query = c.narrowed all) ∧
      c.snapshot c.target = .ok snapshot ∧ c.Explains plan snapshot.segments main related response := by
  obtain ⟨snapshot, hsnapshot⟩ := h.target
  have hrespond : (CallM.toAct (c.respond clock)).Ends s
      (fun response _ => ∃ plan main related,
        ((CallM.toAct (c.planPhase clock)).result s).1 = .ok plan ∧
        (∃ all, ((CallM.toAct (c.constraintsPhase clock)).result s).1 = .ok all ∧
          plan.query = c.narrowed all) ∧
        c.Explains plan snapshot.segments main related response) fun _ => True := by
    simp only [respond_eq_plan, CallM.toAct_bind]
    have hplan := h.ends_planPhase clock hsound
    have hvalue : (CallM.toAct (c.planPhase clock)).Ends s
        (fun plan _ => ((CallM.toAct (c.planPhase clock)).result s).1 = .ok plan) fun _ => True :=
      Act.ends_of_forall (fun plan t hr => congrArg Prod.fst hr) fun _ _ _ => trivial
    refine ((hplan.and hvalue).mono (fun _ _ h => h) fun _ _ => trivial).bind ?_
    rintro plan t ⟨⟨ht, hquery, hfields, hclauses, hranks⟩, hplan⟩
    refine ((h.comes_mainPhase clock hclauses hsnapshot).ends ht).bind ?_
    rintro main t ⟨ht, -, hmain⟩
    refine ((yields_facetsPhase h.lists clock main).comes.ends ht).bind ?_
    rintro related t ⟨-, hrelated⟩
    have hhits : (Act.ofExcept (c.page main.hits)).Ends t
        (fun hits _ => c.page main.hits = .ok hits) fun _ => True :=
      Act.ends_ofExcept (fun _ h => h) fun _ _ => trivial
    refine hhits.bind fun hits t hpage => ?_
    exact ⟨plan, main, related, hplan, hquery, hfields, hclauses, hranks, hmain, hrelated, hpage, rfl⟩
  obtain ⟨plan, main, related, hplan, hquery, hexplains⟩ :=
    hrespond.of_ok (Prod.ext hresponse rfl)
  exact ⟨plan, snapshot, main, related, hplan, hquery, hsnapshot, hexplains⟩

end Grounded

end Call

end FederatedSearch
