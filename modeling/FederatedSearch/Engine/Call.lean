import FederatedSearch.Collector.Blended
import FederatedSearch.Collector.Collapse
import FederatedSearch.Collector.FieldSort
import FederatedSearch.Collector.Related
import FederatedSearch.Collector.Relevance
import FederatedSearch.Engine.Constraints
import FederatedSearch.Engine.Response
import FederatedSearch.Engine.Settings
import FederatedSearch.Search.Run

/-!
# Calls

A call answers one request on fixed snapshots of the cores that the request names. It goes through
phases: the constraints that other cores put on the result core, the tables for sorting by fields of
other cores and for rank queries, the main search of the result core, and at last the facets of the
other cores, which count documents related to those that the main search matched.

A request that involves a single core skips everything that has to do with others.

## Main definitions

* `Call` — the fixed parts of a call
* `Call.constraints`, `Call.sortClauses`, `Call.rankSources`, `Call.mainSearch`, … — the phases
* `Call.respond` — the whole call
-/

namespace FederatedSearch

/-! ### Phases and their times -/

/-- What the searches of a call work on: the caches, and the schedules of the searches to come. When no
schedule is left, the groups of a search run in turn. -/
structure CallStore where
  caches : Caches
  schedules : List Schedule := []

namespace CallStore

/-- The schedule of the next search. -/
def nextSchedule : Act CallStore Schedule :=
  Act.ofUpdate fun s => (.ok (s.schedules.headD []), { s with schedules := s.schedules.tail })

/-- A computation that only needs the caches. -/
def onCaches {α : Type} (a : Act Caches α) : Act CallStore α :=
  Act.ofUpdate fun s =>
    let (r, caches) := a.result s.caches
    (r, { s with caches })

end CallStore

/-- What a call changes: the caches, the schedules, and the times of the phases that are over. -/
structure CallState extends CallStore where
  timings : List PhaseTime := []

/-- Computations of a call. The time is read by means of `m`. -/
abbrev CallM (m : Type → Type) := ExceptT Failure (StateT CallState m)

namespace CallM

variable {m : Type → Type} [Monad m] {α : Type}

/-- A computation that does not need the time. -/
def ofAct (a : Act CallStore α) : CallM m α := fun s =>
  let (r, store) := a.result s.toCallStore
  pure (r, { s with toCallStore := store })

def ofExcept (r : Except Failure α) : CallM m α := fun s => pure (r, s)

end CallM

/-- The fixed parts of a call. -/
structure Call where
  request : Request
  settings : Settings
  snapshots : NameMap Snapshot
  live : Liveness
  /-- Whether more than the result core is involved. -/
  isFederated : Bool

namespace Call

variable (c : Call)

def workshop : Workshop := ⟨c.settings.concurrency, c.live⟩

/-- The result core. -/
def target : String := c.request.resultsFrom

def snapshot (core : String) : Except Failure Snapshot :=
  match c.snapshots.find? core with
  | some s => .ok s
  | none => .error (.unknownCore core)

variable [PatternEngines]

/-- Search a core. -/
def search {B L P F : Type} (core : String) (query : Query) (collector : Collector B L P F) :
    Act CallStore F := do
  let snapshot ← Act.ofExcept (c.snapshot core)
  let schedule ← CallStore.nextSchedule
  CallStore.onCaches (Caches.search c.workshop schedule snapshot query collector)

/-- The join keys that a query finds in a field of a core. -/
def collectKeys (core : String) (query : Query) (field : String) : Act CallStore KeyBits := do
  let snapshot ← Act.ofExcept (c.snapshot core)
  let schedule ← CallStore.nextSchedule
  CallStore.onCaches (Caches.collectKeys c.workshop schedule snapshot query field)

def keyField (source target : String) : Act CallStore String :=
  Act.ofExcept (c.request.keyField source target)

/-! ### Constraints -/

/-- One side of a unite: the field of the result core that it goes through, and the keys. -/
def uniteSide (core : String) (query : Query) (partner : String) :
    Act CallStore (String × KeyBits) := do
  if core = c.target then
    let field ← c.keyField core partner
    return (field, ← c.collectKeys core query field)
  else
    let field ← c.keyField c.target core
    let ownField ← c.keyField core c.target
    return (field, ← c.collectKeys core query ownField)

/-- Demand a key of either side of a unite. -/
def requireUnite (constraints : Constraints) (u : Unite) : Act CallStore Constraints := do
  let (fieldA, keysA) ← c.uniteSide u.coreA u.queryA u.coreB
  let (fieldB, keysB) ← c.uniteSide u.coreB u.queryB u.coreA
  if fieldA = fieldB then return constraints.require fieldA (.plain (keysA.union keysB))
  else throw (.invalidRequest (.divergingUnite u.coreA u.coreB c.target))

/-- The cores that are named in a unite. Their primary queries put no demand of their own. -/
def united : List String := c.request.unites.flatMap fun u => [u.coreA, u.coreB]

/-- Demand what the filters, the exclusions and the primary query of another core ask for. Without a
primary query the core does not restrict anything by itself. -/
def requireCore (constraints : Constraints) (name : String) (core : CoreQuery) :
    Act CallStore Constraints := do
  let field ← c.keyField c.target name
  let ownField ← c.keyField name c.target
  let constraints ← core.filters.foldlM (fun constraints filter => do
    return constraints.require field (.plain (← c.collectKeys name filter ownField))) constraints
  let constraints ← core.excludes.foldlM (fun constraints exclude => do
    return constraints.require field (.complement (← c.collectKeys name exclude ownField)))
    constraints
  match core.query with
  | some primary =>
    if c.united.contains name then return constraints
    else return constraints.require field (.plain (← c.collectKeys name primary ownField))
  | none => return constraints

/-- Demand what the relational filter asks for. -/
def requireRelational (constraints : Constraints) (filter : RelationalFilter) :
    Act CallStore Constraints := do
  return constraints.require filter.field (← filter.expr.evaluate c.collectKeys none)

/-! ### Sorting and ranking -/

/-- The clause of a sort field of another core. -/
def relatedClause (core : String) (f : SortField) : Act CallStore SortClause := do
  let ownField ← c.keyField core c.target
  let table ← c.search core (c.request.core core).fullQuery (firstDocs ownField)
  let keyField ← c.keyField c.target core
  Act.ofExcept (SortClause.related? f keyField table (← Act.ofExcept (c.snapshot core)))

/-- The scores of a rank query. -/
def rankSource (core : String) (query : Query) : Act CallStore RankSource := do
  let ownField ← c.keyField core c.target
  let table ← c.search core query (rankScores ownField)
  return ⟨← c.keyField c.target core, table⟩

/-! ### The main search -/

/-- The fields of the result core whose keys the main search has to hand on: those that lead to
other cores with facets, and the exported one. Each is listed once, in order. -/
def handedFields : Except Failure (List String) := do
  let related ← (c.request.otherCores.filter (!·.2.facets.isEmpty)).mapM fun (name, _) =>
    c.request.keyField c.target name
  let fields := related ++ c.request.exportKey.toList
  return (NameMap.ofList (fields.map fun f => (f, ()))).keys

/-- What the main search finds. -/
structure MainResult where
  hits : List Hit
  total : Nat
  facets : List Facet
  /-- The keys of all matches in the fields that have to be handed on. -/
  keys : List (String × KeyBits)

/-- Search the result core, with a collector for the page next to those for the number of matches,
the facets and the keys. `pageOf` gives the hits, and their number if that is not the number of
matches. -/
def mainSearch {B L P F : Type} (query : Query) (page : Collector B L P F)
    (pageOf : F → List Hit × Option Nat) (ranks : List RankSource) (fields : List String) :
    Act CallStore MainResult := do
  let ratio := if ranks.isEmpty then defaultRatio else effectiveRatio c.request.rankRatio
  let collector := (page.blended ranks ratio).both
    (counting.both ((faceting (c.request.core c.target).facets).both (.many (fields.map joinKeys))))
  let (fruit, count, facets, keys) ← c.search c.target query collector
  let (hits, groups) := pageOf fruit
  return ⟨hits, groups.getD count, facets, fields.zip keys⟩

/-- The main search with the collector for the page that the request calls for. -/
def pageSearch (query : Query) (clauses : List SortClause) (ranks : List RankSource)
    (fields : List String) : Act CallStore MainResult :=
  let limit := c.request.stop.toNat
  match c.request.collapse with
  | some field =>
    c.mainSearch query (collapsing field limit c.settings.retryBudget)
      (fun r => (r.hits, some r.groups)) ranks fields
  | none =>
    if clauses.isEmpty then c.mainSearch query (mostRelevant limit) (·, none) ranks fields
    else c.mainSearch query (firstInOrder clauses limit) (·.map (·.hit), none) ranks fields

/-! ### After the main search -/

/-- The facets of another core, over its documents that are related to matches of the main
search. -/
def relatedFacets (name : String) (core : CoreQuery) (main : MainResult) :
    Act CallStore (List Facet) := do
  let field ← c.keyField c.target name
  let keys := (main.keys.lookup field).getD .empty
  let ownField ← c.keyField name c.target
  c.search name (core.fullQuery.withFilter (.joinKeys ownField (.plain keys)))
    (faceting core.facets)

/-- The page of the response. -/
def page (hits : List Hit) : Except Failure (List PageHit) := do
  let snapshot ← c.snapshot c.target
  (hits.drop c.request.start.toNat).mapM fun hit => do
    return ⟨(← snapshot.stored hit.doc).id, hit.score⟩

/-! ### The whole call -/

variable {m : Type → Type} [Monad m] (clock : m Nat)

/-- A phase of the call; if times are recorded then its time is noted. -/
def timed {α : Type} (phase core : String) (a : Act CallStore α) : CallM m α := do
  if c.settings.recordTimings then
    let started ← clock
    let r ← CallM.ofAct a
    let ended ← clock
    modify fun s => { s with timings := s.timings ++ [⟨phase, core, ended - started⟩] }
    return r
  else CallM.ofAct a

/-- The constraints on the result core. -/
def constraints : CallM m Constraints := do
  let all ←
    match c.request.relationalFilter with
    | some filter =>
      c.timed clock "relational_filter" c.target (c.requireRelational .empty filter)
    | none => pure .empty
  let all ← c.request.unites.foldlM (fun all u =>
    c.timed clock "unite" c.target (c.requireUnite all u)) all
  c.request.otherCores.foldlM (fun all (name, core) =>
    c.timed clock "core_filter" name (c.requireCore all name core)) all

/-- The sort clauses of the request. -/
def sortClauses : CallM m (List SortClause) :=
  c.request.sort.mapM fun f =>
    match f.core with
    | some other =>
      if other = c.target then CallM.ofExcept (SortClause.own? f)
      else c.timed clock "join_sort" other (c.relatedClause other f)
    | none => CallM.ofExcept (SortClause.own? f)

/-- The scores of all rank queries. -/
def rankSources : CallM m (List RankSource) :=
  c.request.rankQueries.entries.mapM fun (core, query) =>
    c.timed clock "rank" core (c.rankSource core query)

/-- The facets of all other cores that the request wants facets of. -/
def allRelatedFacets (main : MainResult) : CallM m (List (String × List Facet)) :=
  (c.request.otherCores.filter (!·.2.facets.isEmpty)).mapM fun (name, core) => do
    return (name, ← c.timed clock "facet" name (c.relatedFacets name core main))

/-- Answer the request. -/
def respond : CallM m Response := do
  let constraints ← if c.isFederated then c.constraints clock else pure .empty
  let own := c.request.core c.target
  let query := constraints.narrow own.fullQuery
  let fields ← if c.isFederated then CallM.ofExcept c.handedFields else pure []
  let clauses ← c.sortClauses clock
  let ranks ← c.rankSources clock
  let main ← c.timed clock "main" c.target (c.pageSearch query clauses ranks fields)
  let ownFacets := if own.facets.isEmpty then [] else [(c.target, main.facets)]
  let related ← if c.isFederated then c.allRelatedFacets clock main else pure []
  let hits ← CallM.ofExcept (c.page main.hits)
  return {
    totalHits := main.total
    hits := hits
    facets := .ofList (ownFacets ++ related)
    exportedKeys := c.request.exportKey.bind fun field => main.keys.lookup field
    timings := (← get).timings }

end Call

end FederatedSearch
