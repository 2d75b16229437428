import FederatedSearch.NameMap
import FederatedSearch.Number.Binary
import FederatedSearch.Relation.Expr

/-!
# Requests

A request asks for a page of documents of one core, the result core, restricted, ranked, sorted and
summarised by means of other cores. Cores are related by links: a link says which field of its
source core holds keys that point at its target core.

## Main definitions

* `Request` — one request, with the entries it is made of
* `CoreQuery.fullQuery` — what is asked of one core on its own
* `Request.keyField` — the field that relates one core to another
* `Request.referencedCores` — every core a request names
* `Request.validate` — what can be checked without the cores
-/

namespace FederatedSearch

/-- A request for the counts of the text forms in a field. -/
structure FacetRequest where
  field : String
  /-- The greatest number of terms given back. -/
  limit : Option UInt64 := none
  /-- Terms with fewer documents are left out. -/
  minCount : UInt64 := 1
deriving DecidableEq, Inhabited

/-- What is asked of one core. -/
structure CoreQuery where
  /-- The primary query; without one, all documents are meant. -/
  query : Option Query := none
  filters : List Query := []
  excludes : List Query := []
  facets : List FacetRequest := []
deriving Inhabited, BEq

namespace CoreQuery

def primary (c : CoreQuery) : Query := c.query.getD .all

/-- The primary query narrowed by the filters and exclusions of the core. -/
def fullQuery (c : CoreQuery) : Query := c.primary.restrict c.filters c.excludes

end CoreQuery

/-- Documents of `source` point at `target` through a key field of `source`. A relation that is
used in both directions takes two links. -/
structure Link where
  source : String
  target : String
  keyField : String
deriving DecidableEq, Inhabited

/-- Documents of the result core that are related to either of two parts. -/
structure Unite where
  coreA : String
  queryA : Query
  coreB : String
  queryB : Query
deriving Inhabited, BEq

/-- A restriction of the keys in a field of the result core. -/
structure RelationalFilter where
  field : String
  expr : RelationalExpr
deriving Inhabited, BEq

/-! ### Sorting -/

/-- How the values of a sort field are compared. -/
inductive ValueType where
  | text
  | int
  | double
  /-- By relevance; the field is not looked at. -/
  | score
deriving DecidableEq, Inhabited

inductive SortOrder where
  | ascending
  | descending
deriving DecidableEq, Inhabited

/-- Where documents without a value go. Texts go before or after all others, whatever the order;
missing numbers count as some number. -/
inductive MissingValue where
  | textFirst
  | textLast
  | number (value : Binary64)
deriving DecidableEq

instance : Inhabited MissingValue := ⟨.textLast⟩

/-- The number that stands for a missing one. -/
def MissingValue.numeric : MissingValue → Binary64
  | number x => x
  | _ => .zero

/-- One level of a sort order. -/
structure SortField where
  /-- The core that has the field; the result core if there is none. -/
  core : Option String := none
  field : String := ""
  valueType : ValueType := .text
  order : SortOrder := .ascending
  missing : MissingValue := .textLast
deriving DecidableEq, Inhabited

/-- By relevance, the best first. -/
def SortField.byScore : SortField := { valueType := .score, order := .descending }

/-! ### The request -/

def defaultStop : UInt64 := 10

/-- One request. -/
structure Request where
  resultsFrom : String
  cores : NameMap CoreQuery := .empty
  links : List Link := []
  unites : List Unite := []
  relationalFilter : Option RelationalFilter := none
  rankQueries : NameMap Query := .empty
  rankRatio : Option Binary32 := none
  sort : List SortField := []
  /-- The page starts after this many hits … -/
  start : UInt64 := 0
  /-- … and stops after this many. -/
  stop : UInt64 := defaultStop
  /-- A field of the result core whose keys are given back. -/
  exportKey : Option String := none
  /-- A field of the result core of whose keys only the best hit each is kept. -/
  collapse : Option String := none
deriving Inhabited

namespace Request

variable (r : Request)

/-- What is asked of a core; nothing in particular if the request does not list it. -/
def core (name : String) : CoreQuery := (r.cores.find? name).getD {}

/-- The listed cores other than the result core, in name order. -/
def otherCores : List (String × CoreQuery) :=
  r.cores.entries.filter (·.1 ≠ r.resultsFrom)

/-- The number of listed cores, with the result core. -/
def participantCount : Nat :=
  r.cores.size + if r.cores.contains r.resultsFrom then 0 else 1

/-- The key field of `source` that points at `target`: the first link between them decides. -/
def keyField (source target : String) : Except Failure String :=
  match r.links.find? fun l => l.source = source ∧ l.target = target with
  | some l => .ok l.keyField
  | none => .error (.missingRelation source target)

/-- Every core that the request names anywhere, in name order. -/
def referencedCores : List String :=
  let names :=
    [r.resultsFrom] ++ r.cores.keys ++ r.links.flatMap (fun l => [l.source, l.target]) ++
      r.unites.flatMap (fun u => [u.coreA, u.coreB]) ++ r.rankQueries.keys ++
      r.sort.filterMap (·.core) ++ (r.relationalFilter.map (·.expr.cores)).getD []
  (NameMap.ofList (names.map fun n => (n, ()))).keys

/-- The checks that need no cores. -/
def validate : Except Failure Unit :=
  if r.stop < r.start then
    .error (.invalidRequest (.reversedWindow r.start.toNat r.stop.toNat))
  else if r.collapse.isSome && r.sort.any (·.valueType ≠ .score) then
    .error (.invalidRequest .collapseWithoutRelevance)
  else .ok ()

/-! ### Building requests -/

/-- A request for everything in one core. -/
def ofCore (name : String) : Request :=
  { resultsFrom := name, cores := NameMap.empty.insert name {} }

def updateCore (name : String) (f : CoreQuery → CoreQuery) : Request :=
  { r with cores := r.cores.update name fun c => f (c.getD {}) }

/-- Set the primary query of a core, listing it. -/
def query (name : String) (q : Query) : Request := r.updateCore name ({ · with query := some q })

/-- List a core without asking anything of it. -/
def participate (name : String) : Request := r.updateCore name id

def filter (name : String) (q : Query) : Request :=
  r.updateCore name fun c => { c with filters := c.filters ++ [q] }

def exclude (name : String) (q : Query) : Request :=
  r.updateCore name fun c => { c with excludes := c.excludes ++ [q] }

def facet (name : String) (f : FacetRequest) : Request :=
  r.updateCore name fun c => { c with facets := c.facets ++ [f] }

/-- Relate two cores in both directions. -/
def join (a aField b bField : String) : Request :=
  { r with links := r.links ++ [⟨a, b, aField⟩, ⟨b, a, bField⟩] }

def unite (coreA : String) (queryA : Query) (coreB : String) (queryB : Query) : Request :=
  { r with unites := r.unites ++ [⟨coreA, queryA, coreB, queryB⟩] }

def relational (field : String) (expr : RelationalExpr) : Request :=
  { r with relationalFilter := some ⟨field, expr⟩ }

def rank (name : String) (q : Query) : Request :=
  { r with rankQueries := r.rankQueries.insert name q }

def ratio (x : Binary32) : Request := { r with rankRatio := some x }

def sortBy (f : SortField) : Request := { r with sort := r.sort ++ [f] }

def page (start stop : UInt64) : Request := { r with start, stop }

def exporting (field : String) : Request := { r with exportKey := some field }

def collapsing (field : String) : Request := { r with collapse := some field }

end Request

/-! ### Equality

Numbers are equal as numbers here: a NaN differs from itself and the two zeros are the same. -/

def MissingValue.same : MissingValue → MissingValue → Bool
  | number x, number y => x.sameNumber y
  | a, b => a == b

def SortField.same (a b : SortField) : Bool :=
  a.core == b.core && a.field == b.field && a.valueType == b.valueType && a.order == b.order &&
    a.missing.same b.missing

def sameRatio : Option Binary32 → Option Binary32 → Bool
  | some x, some y => x.sameNumber y
  | none, none => true
  | _, _ => false

def sameSort : List SortField → List SortField → Bool
  | [], [] => true
  | a :: as, b :: bs => a.same b && sameSort as bs
  | _, _ => false

/-- Whether two requests ask for the same. -/
def Request.same (a b : Request) : Bool :=
  a.resultsFrom == b.resultsFrom && a.cores == b.cores && a.links == b.links &&
    a.unites == b.unites && a.relationalFilter == b.relationalFilter &&
    a.rankQueries == b.rankQueries && sameRatio a.rankRatio b.rankRatio &&
    sameSort a.sort b.sort && a.start == b.start && a.stop == b.stop &&
    a.exportKey == b.exportKey && a.collapse == b.collapse

end FederatedSearch
