import FederatedSearch.Query.Basic

/-!
# Relational expressions

A relational expression combines, by and, or and not, sets of join keys that were collected from
several cores. It denotes one set of keys in a key space that all those cores share.

An evaluation may be restricted to a set of keys. The restriction is handed down to the leaves,
which add it to their queries as a filter, so that no core is asked for keys that cannot matter.

## Main definitions

* `RelationalExpr` — the expression
* `RelationalExpr.evaluate` — its key set, given a source of keys for the leaves
* `RelationalExpr.reads` — its Boolean reading, key by key
* `RelationalExpr.cores` — the cores it reads from
-/

namespace FederatedSearch

inductive RelationalExpr where
  /-- Keys that the documents of a core matching a query hold in a field. -/
  | leaf (core : String) (query : Query) (keyField : String)
  | and (first second : RelationalExpr)
  | or (first second : RelationalExpr)
  | not (inner : RelationalExpr)
deriving Inhabited

namespace RelationalExpr

/-- Whether two expressions are the same, up to the capacity of key sets. -/
def same : RelationalExpr → RelationalExpr → Bool
  | leaf c q f, leaf d r g => c == d && q == r && f == g
  | and a b, and c d => same a c && same b d
  | or a b, or c d => same a c && same b d
  | not a, not b => same a b
  | _, _ => false

instance : BEq RelationalExpr := ⟨same⟩

variable {m : Type → Type} [Monad m]

/-- The key set of an expression. `collect core query field` gives the keys of a leaf; a
restriction limits the answer to its keys, so far as that can be told: a complement that comes out
of a restricted `not` also covers everything outside the restriction.

The right side of a conjunction is evaluated under what its left side leaves over. A plain result
lies within that already, a complement has to be cut back to it. -/
def evaluate (collect : String → Query → String → m KeyBits) :
    RelationalExpr → Option KeySet → m KeySet
  | leaf core query field, restriction => do
    let query :=
      match restriction with
      | some keys => query.withFilter (.joinKeys field keys)
      | none => query
    return .plain (← collect core query field)
  | and first second, restriction => do
    let left ← evaluate collect first restriction
    let allowed :=
      match restriction with
      | some keys => left.meet keys
      | none => left
    let right ← evaluate collect second (some allowed)
    return if right.inverted then allowed.meet right else right
  | or first second, restriction => do
    let left ← evaluate collect first restriction
    let right ← evaluate collect second restriction
    let union := left.union right
    return match restriction with
      | some keys => if union.inverted then keys.meet union else union
      | none => union
  | not inner, restriction => do
    return (← evaluate collect inner restriction).negate

/-- The Boolean reading of an expression at one key, where `holds core query field` says whether
the key is among those collected by a leaf. -/
def reads (holds : String → Query → String → Bool) : RelationalExpr → Bool
  | leaf core query field => holds core query field
  | and first second => first.reads holds && second.reads holds
  | or first second => first.reads holds || second.reads holds
  | not inner => !inner.reads holds

/-- The cores of the leaves, from left to right. -/
def cores : RelationalExpr → List String
  | leaf core _ _ => [core]
  | and first second => first.cores ++ second.cores
  | or first second => first.cores ++ second.cores
  | not inner => inner.cores

end RelationalExpr

end FederatedSearch
