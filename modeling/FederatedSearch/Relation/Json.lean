import FederatedSearch.Query.Json
import FederatedSearch.Relation.Expr

/-!
# Relational expressions in JSON

A relational expression is a tagged record whose tag is the member `op`.
-/

namespace FederatedSearch

namespace RelationalExpr

def variants : List String := ["leaf", "and", "or", "not"]

/-- The JSON form, if no query inside holds a key set. -/
def toJson? : RelationalExpr → Option Json
  | leaf core query field => do
    some (.object [("op", .text "leaf"), ("core", .text core), ("query", ← query.toJson?),
      ("key_field", .text field)])
  | and first second => do
    some (.object [("op", .text "and"), ("first", ← first.toJson?), ("second", ← second.toJson?)])
  | or first second => do
    some (.object [("op", .text "or"), ("first", ← first.toJson?), ("second", ← second.toJson?)])
  | not inner => do some (.object [("op", .text "not"), ("inner", ← inner.toJson?)])

/-- Read an expression nested at most `room` deep. `inside` says whether it is part of another
tagged record. -/
def ofJsonWithin? : Nat → Bool → Json → Option RelationalExpr
  | 0, _, _ => none
  | room + 1, inside, j => do
    let (variant, body) ← j.tagged? "op" variants inside
    match variant with
    | "leaf" =>
      let [core, query, field] ← body.fields? ["core", "query", "key_field"] | none
      let query? := fun j : Json => Query.ofJsonWithin? (j.depth + 1) true j
      some (leaf (← Json.required core Json.toText?) (← Json.required query query?)
        (← Json.required field Json.toText?))
    | "not" =>
      let [inner] ← body.fields? ["inner"] | none
      some (not (← Json.required inner (ofJsonWithin? room true)))
    | variant =>
      let [first, second] ← body.fields? ["first", "second"] | none
      let first ← Json.required first (ofJsonWithin? room true)
      let second ← Json.required second (ofJsonWithin? room true)
      some (if variant = "and" then and first second else or first second)

def ofJson? (j : Json) : Option RelationalExpr := ofJsonWithin? (j.depth + 1) false j

end RelationalExpr

end FederatedSearch
