import FederatedSearch.Relation.Json
import FederatedSearch.Request.Basic

/-!
# Requests in JSON

Every entry of a request is a record. Writing lists all fields, with `null` for what is absent;
reading lets every field default except those without which the entry would mean nothing.

## Main definitions

* `Request.ofJson?` — the request that a document holds
* `Request.toJson?` — the document of a request without key sets
-/

namespace FederatedSearch

open Json (required defaulted toText? toUInt64? toList? toMap? toOptional?)

def optionalJson {α : Type} (write : α → Json) : Option α → Json
  | none => .null
  | some a => write a

def optionalJson? {α : Type} (write? : α → Option Json) : Option α → Option Json
  | none => some .null
  | some a => write? a

def mapJson? {α : Type} (write? : α → Option Json) (m : NameMap α) : Option Json := do
  some (.object (← m.entries.mapM fun e => (write? e.2).map fun j => (e.1, j)))

def listJson? {α : Type} (write? : α → Option Json) (items : List α) : Option Json := do
  some (.array (← items.mapM write?))

/-- Sizes and counts. -/
def countJson (n : UInt64) : Json := .integer n.toNat

/-! ### Entries -/

def FacetRequest.ofJson? (j : Json) : Option FacetRequest := do
  let [field, limit, minCount] ← j.fields? ["field", "limit", "min_count"] | none
  some {
    field := ← required field toText?
    limit := ← defaulted limit none (toOptional? toUInt64?)
    minCount := ← defaulted minCount 1 toUInt64? }

def FacetRequest.toJson (f : FacetRequest) : Json :=
  .object [("field", .text f.field), ("limit", optionalJson countJson f.limit),
    ("min_count", countJson f.minCount)]

def CoreQuery.ofJson? (j : Json) : Option CoreQuery := do
  let [query, filters, excludes, facets] ← j.fields?
    ["query", "filter_queries", "exclude_filter_queries", "facets"] | none
  some {
    query := ← defaulted query none (toOptional? Query.ofJson?)
    filters := ← defaulted filters [] (toList? Query.ofJson?)
    excludes := ← defaulted excludes [] (toList? Query.ofJson?)
    facets := ← defaulted facets [] (toList? FacetRequest.ofJson?) }

def CoreQuery.toJson? (c : CoreQuery) : Option Json := do
  some (.object [("query", ← optionalJson? Query.toJson? c.query),
    ("filter_queries", ← listJson? Query.toJson? c.filters),
    ("exclude_filter_queries", ← listJson? Query.toJson? c.excludes),
    ("facets", .array (c.facets.map FacetRequest.toJson))])

def Link.ofJson? (j : Json) : Option Link := do
  let [source, target, keyField] ← j.fields? ["from", "to", "key_field"] | none
  some {
    source := ← required source toText?
    target := ← required target toText?
    keyField := ← required keyField toText? }

def Link.toJson (l : Link) : Json :=
  .object [("from", .text l.source), ("to", .text l.target), ("key_field", .text l.keyField)]

def Unite.ofJson? (j : Json) : Option Unite := do
  let [coreA, queryA, coreB, queryB] ← j.fields? ["core_a", "query_a", "core_b", "query_b"] | none
  some {
    coreA := ← required coreA toText?
    queryA := ← required queryA Query.ofJson?
    coreB := ← required coreB toText?
    queryB := ← required queryB Query.ofJson? }

def Unite.toJson? (u : Unite) : Option Json := do
  some (.object [("core_a", .text u.coreA), ("query_a", ← u.queryA.toJson?),
    ("core_b", .text u.coreB), ("query_b", ← u.queryB.toJson?)])

def RelationalFilter.ofJson? (j : Json) : Option RelationalFilter := do
  let [field, expr] ← j.fields? ["field", "expr"] | none
  some { field := ← required field toText?, expr := ← required expr RelationalExpr.ofJson? }

def RelationalFilter.toJson? (f : RelationalFilter) : Option Json := do
  some (.object [("field", .text f.field), ("expr", ← f.expr.toJson?)])

/-! ### Sorting -/

def ValueType.names : List String := ["string", "int", "double", "score"]

def ValueType.toName : ValueType → String
  | text => "string"
  | int => "int"
  | double => "double"
  | score => "score"

def ValueType.ofName : String → ValueType
  | "int" => .int
  | "double" => .double
  | "score" => .score
  | _ => .text

def ValueType.ofJson? (j : Json) : Option ValueType := (j.choice? names).map ofName

def SortOrder.toName : SortOrder → String
  | ascending => "asc"
  | descending => "desc"

def SortOrder.ofJson? (j : Json) : Option SortOrder :=
  (j.choice? ["asc", "desc"]).map fun name => if name = "asc" then ascending else descending

/-- A number is written as an object from a name to it, the other policies as their names. -/
def MissingValue.ofJson? : Json → Option MissingValue
  | .object [("NUMERIC", j)] => j.toDouble?.map number
  | j => (j.choice? ["STRING_FIRST", "STRING_LAST"]).map fun name =>
    if name = "STRING_FIRST" then textFirst else textLast

def MissingValue.toJson : MissingValue → Json
  | textFirst => .text "STRING_FIRST"
  | textLast => .text "STRING_LAST"
  | number x => .object [("NUMERIC", .double x)]

def SortField.ofJson? (j : Json) : Option SortField := do
  let [core, field, valueType, order, missing] ← j.fields?
    ["core", "field", "value_type", "order", "missing"] | none
  some {
    core := ← defaulted core none (toOptional? toText?)
    field := ← defaulted field "" toText?
    valueType := ← defaulted valueType .text ValueType.ofJson?
    order := ← defaulted order .ascending SortOrder.ofJson?
    missing := ← defaulted missing .textLast MissingValue.ofJson? }

def SortField.toJson (f : SortField) : Json :=
  .object [("core", optionalJson .text f.core), ("field", .text f.field),
    ("value_type", .text f.valueType.toName), ("order", .text f.order.toName),
    ("missing", f.missing.toJson)]

/-! ### The request -/

namespace Request

def fieldNames : List String :=
  ["results_from", "cores", "matches", "unites", "relational_filter", "rank_queries",
    "rank_ratio", "sort", "start", "stop", "export_key", "collapse"]

def ofJson? (j : Json) : Option Request := do
  let [resultsFrom, cores, links, unites, relationalFilter, rankQueries, rankRatio, sort, start,
    stop, exportKey, collapse] ← j.fields? fieldNames | none
  some {
    resultsFrom := ← required resultsFrom toText?
    cores := ← defaulted cores .empty (toMap? CoreQuery.ofJson?)
    links := ← defaulted links [] (toList? Link.ofJson?)
    unites := ← defaulted unites [] (toList? Unite.ofJson?)
    relationalFilter := ← defaulted relationalFilter none (toOptional? RelationalFilter.ofJson?)
    rankQueries := ← defaulted rankQueries .empty (toMap? Query.ofJson?)
    rankRatio := ← defaulted rankRatio none (toOptional? Json.toSingle?)
    sort := ← defaulted sort [] (toList? SortField.ofJson?)
    start := ← defaulted start 0 toUInt64?
    stop := ← defaulted stop defaultStop toUInt64?
    exportKey := ← defaulted exportKey none (toOptional? toText?)
    collapse := ← defaulted collapse none (toOptional? toText?) }

def toJson? (r : Request) : Option Json := do
  some (.object [
    ("results_from", .text r.resultsFrom),
    ("cores", ← mapJson? CoreQuery.toJson? r.cores),
    ("matches", .array (r.links.map Link.toJson)),
    ("unites", ← listJson? Unite.toJson? r.unites),
    ("relational_filter", ← optionalJson? RelationalFilter.toJson? r.relationalFilter),
    ("rank_queries", ← mapJson? Query.toJson? r.rankQueries),
    ("rank_ratio", optionalJson .single r.rankRatio),
    ("sort", .array (r.sort.map SortField.toJson)),
    ("start", countJson r.start),
    ("stop", countJson r.stop),
    ("export_key", optionalJson .text r.exportKey),
    ("collapse", optionalJson .text r.collapse)])

end Request

end FederatedSearch
