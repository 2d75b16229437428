import FederatedSearch.Json.Shape
import FederatedSearch.Query.Basic

/-!
# Queries in JSON

A query is a tagged record whose tag is the member `type`. Key sets have no JSON form: they exist
only inside a running call.
-/

namespace FederatedSearch

namespace Query

def variants : List String :=
  ["all", "term", "range", "exists", "wildcard", "regex", "bool"]

def optionalBound : Option Int64 → Json
  | none => .null
  | some v => .integer v.toInt

mutual

/-- The JSON form, for queries without key sets. -/
def toJson? : Query → Option Json
  | all => some (.object [("type", .text "all")])
  | term f v => some (.object [("type", .text "term"), ("field", .text f), ("value", .text v)])
  | range f lo hi =>
    some (.object [("type", .text "range"), ("field", .text f), ("min", optionalBound lo),
      ("max", optionalBound hi)])
  | present f => some (.object [("type", .text "exists"), ("field", .text f)])
  | wildcard f p =>
    some (.object [("type", .text "wildcard"), ("field", .text f), ("pattern", .text p)])
  | regex f p => some (.object [("type", .text "regex"), ("field", .text f), ("pattern", .text p)])
  | bool must should filter mustNot => do
    some (.object [("type", .text "bool"), ("must", .array (← listToJson? must)),
      ("should", .array (← listToJson? should)), ("filter", .array (← listToJson? filter)),
      ("must_not", .array (← listToJson? mustNot))])
  | joinKeys _ _ => none

def listToJson? : List Query → Option (List Json)
  | [] => some []
  | q :: rest => do
    let j ← q.toJson?
    let js ← listToJson? rest
    some (j :: js)

end

/-- A record with two text fields. -/
def textPair? (first second : String) (j : Json) : Option (String × String) := do
  let [a, b] ← j.fields? [first, second] | none
  some (← Json.required a Json.toText?, ← Json.required b Json.toText?)

/-- Read a query nested at most `room` deep. `inside` says whether it is part of another tagged
record. -/
def ofJsonWithin? : Nat → Bool → Json → Option Query
  | 0, _, _ => none
  | room + 1, inside, j => do
    let (variant, body) ← j.tagged? "type" variants inside
    match variant with
    | "all" =>
      match body with
      | .array (_ :: _) => none
      | _ => some all
    | "term" =>
      let (f, v) ← textPair? "field" "value" body
      some (term f v)
    | "range" =>
      let [f, lo, hi] ← body.fields? ["field", "min", "max"] | none
      some (range (← Json.required f Json.toText?)
        (← Json.defaulted lo none (Json.toOptional? Json.toInt64?))
        (← Json.defaulted hi none (Json.toOptional? Json.toInt64?)))
    | "exists" =>
      let [f] ← body.fields? ["field"] | none
      some (present (← Json.required f Json.toText?))
    | "wildcard" =>
      let (f, p) ← textPair? "field" "pattern" body
      some (wildcard f p)
    | "regex" =>
      let (f, p) ← textPair? "field" "pattern" body
      some (regex f p)
    | _ =>
      let [must, should, filter, mustNot] ← body.fields? ["must", "should", "filter", "must_not"]
        | none
      let clauses := fun field => Json.defaulted field [] (Json.toList? (ofJsonWithin? room true))
      some (bool (← clauses must) (← clauses should) (← clauses filter) (← clauses mustNot))

/-- Read a query. Each clause lies deeper in the document than its node, so the depth of the
document bounds the depth of the query. -/
def ofJson? (j : Json) : Option Query := ofJsonWithin? (j.depth + 1) false j

end Query

end FederatedSearch
