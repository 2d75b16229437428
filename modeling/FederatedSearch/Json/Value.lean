import FederatedSearch.Number.Binary

/-!
# JSON documents

Requests, settings, fixtures and responses are JSON documents. A document keeps what its readers
and writers tell apart: whole numbers from fractional ones, the two float widths (they are written
with different digits), the order of members and repeated members.

## Main definitions

* `Json` — a document
* `Json.depth` — how deeply arrays and objects are nested
* `Json.isReadable` — whether every scalar inside denotes something
-/

namespace FederatedSearch

/-- A JSON document. -/
inductive Json where
  | null
  | bool (value : Bool)
  /-- A whole number; readers produce only those that fit in 64 bits, signed or unsigned. -/
  | integer (value : Int)
  | single (value : Binary32)
  | double (value : Binary64)
  | text (value : String)
  | array (items : List Json)
  | object (members : List (String × Json))
  /-- A well-formed scalar that denotes nothing: a number too large for a double, or text with
  half a surrogate pair. It may stand where no one looks, and is refused anywhere else. -/
  | unreadable
deriving Inhabited

namespace Json

mutual

/-- Nesting depth; scalars have depth 0. -/
def depth : Json → Nat
  | array items => depthItems items + 1
  | object members => depthMembers members + 1
  | _ => 0

def depthItems : List Json → Nat
  | [] => 0
  | j :: rest => max j.depth (depthItems rest)

def depthMembers : List (String × Json) → Nat
  | [] => 0
  | (_, j) :: rest => max j.depth (depthMembers rest)

end

mutual

/-- Whether no scalar inside is `unreadable`. -/
def isReadable : Json → Bool
  | array items => allReadable items
  | object members => membersReadable members
  | unreadable => false
  | _ => true

def allReadable : List Json → Bool
  | [] => true
  | j :: rest => j.isReadable && allReadable rest

def membersReadable : List (String × Json) → Bool
  | [] => true
  | (_, j) :: rest => j.isReadable && membersReadable rest

end

end Json

end FederatedSearch
