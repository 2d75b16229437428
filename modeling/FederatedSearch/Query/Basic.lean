import FederatedSearch.Keys.KeySet

/-!
# Queries

A query against one core is a tree. Leaves test one field of a document; a Boolean node combines
required, optional, filtering and excluding clauses.

## Main definitions

* `Query` — the tree
* `Query.same` — equality up to the capacity of key sets
* `Query.restrict` — a query narrowed by filters and exclusions
-/

namespace FederatedSearch

/-- A query against one core. -/
inductive Query where
  /-- Every live document. -/
  | all
  /-- Documents whose value of the field has this text form. -/
  | term (field value : String)
  /-- Documents whose value reads as an integer within the bounds; a missing bound is open. -/
  | range (field : String) (least greatest : Option Int64)
  /-- Documents that have a value. -/
  | present (field : String)
  /-- Documents whose text form matches a wildcard pattern. -/
  | wildcard (field pattern : String)
  /-- Documents whose text form contains a match of a regular expression. -/
  | regex (field pattern : String)
  /-- Clauses: `must` is required and scores, `should` scores and is required only when nothing
  else is, `filter` is required without scoring, `mustNot` excludes. -/
  | bool (must should filter mustNot : List Query)
  /-- Documents whose join key belongs to a set. Only the planner makes these. -/
  | joinKeys (field : String) (keys : KeySet)
deriving Inhabited

namespace Query

mutual

/-- Whether two queries are the same. Key sets count as the same when they hold the same keys. -/
def same : Query → Query → Bool
  | all, all => true
  | term f v, term g w => f == g && v == w
  | range f lo hi, range g lo' hi' => f == g && lo == lo' && hi == hi'
  | present f, present g => f == g
  | wildcard f p, wildcard g r => f == g && p == r
  | regex f p, regex g r => f == g && p == r
  | bool m s f n, bool m' s' f' n' =>
    sameAll m m' && sameAll s s' && sameAll f f' && sameAll n n'
  | joinKeys f k, joinKeys g l => f == g && k == l
  | _, _ => false

def sameAll : List Query → List Query → Bool
  | [], [] => true
  | a :: as, b :: bs => same a b && sameAll as bs
  | _, _ => false

end

instance : BEq Query := ⟨same⟩

def isAll : Query → Bool
  | all => true
  | _ => false

/-- Narrow a query by filters and exclusions. A Boolean node takes them in, any other query becomes
the one required clause of a new node. With nothing to add the query stays as it is. -/
def restrict (q : Query) (filters excludes : List Query) : Query :=
  if filters.isEmpty && excludes.isEmpty then q
  else
    match q with
    | bool must should filter mustNot => bool must should (filter ++ filters) (mustNot ++ excludes)
    | q => bool [q] [] filters excludes

/-- Narrow a query by one filter. -/
def withFilter (q filter : Query) : Query := q.restrict [filter] []

end Query

end FederatedSearch
