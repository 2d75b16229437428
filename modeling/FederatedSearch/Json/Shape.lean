import FederatedSearch.Json.Value
import FederatedSearch.NameMap

/-!
# Shapes of documents

What a part of a document must look like to be read as a value of the domain. Each shape is a
partial function from documents; it gives `none` on any other document.

Records have one shape in common. A record is an object with a member per field, in which unknown
members are ignored and no field may be repeated, or an array of its fields in order. A tagged
record is one of several records; the member named as the tag, or the first item of the array,
says which.

## Main definitions

* `Json.toText?`, `Json.toInt64?`, … — scalars
* `Json.toList?`, `Json.toMap?`, `Json.toOptional?` — collections
* `Json.fields?`, `required`, `defaulted` — records
* `Json.tagged?` — tagged records
-/

namespace FederatedSearch

variable {α : Type}

namespace Json

/-! ### Scalars -/

def toText? : Json → Option String
  | text s => some s
  | _ => none

def toBool? : Json → Option Bool
  | bool b => some b
  | _ => none

def toInt64? : Json → Option Int64
  | integer v => if Int64.minValue.toInt ≤ v ∧ v ≤ Int64.maxValue.toInt then some (Int64.ofInt v) else none
  | _ => none

def toUInt64? : Json → Option UInt64
  | integer v => if 0 ≤ v ∧ v.toNat < UInt64.size then some (UInt64.ofNat v.toNat) else none
  | _ => none

/-- A double-precision field takes any number. -/
def toDouble? : Json → Option Binary64
  | integer v => some (.ofInt v)
  | single x => some x.toDouble
  | double x => some x
  | _ => none

/-- A single-precision field takes any number, rounded to nearest. -/
def toSingle? : Json → Option Binary32
  | integer v => some ⟨(Float32.ofInt v).toBits⟩
  | single x => some x
  | double x => some x.toSingle
  | _ => none

/-! ### Collections -/

def toList? (item? : Json → Option α) : Json → Option (List α)
  | array items => items.mapM item?
  | _ => none

/-- Of repeated names the last one counts, but every value must have the shape. -/
def toMap? (value? : Json → Option α) : Json → Option (NameMap α)
  | object members => do
    let entries ← members.mapM fun (name, j) => (value? j).map fun v => (name, v)
    some (.ofList entries)
  | _ => none

def toOptional? (value? : Json → Option α) : Json → Option (Option α)
  | null => some none
  | j => (value? j).map some

/-! ### Records -/

/-- The members of a name. -/
def membersNamed (name : String) (members : List (String × Json)) : List Json :=
  (members.filter (·.1 = name)).map (·.2)

/-- The field `name`, if it is there; `none` on the outside if it is repeated. -/
def field? (members : List (String × Json)) (name : String) : Option (Option Json) :=
  match membersNamed name members with
  | [] => some none
  | [j] => some (some j)
  | _ => none

/-- The fields of a record, each if it is there. -/
def fields? (names : List String) : Json → Option (List (Option Json))
  | object members => names.mapM (field? members)
  | array items =>
    if items.length ≤ names.length then
      some (items.map some ++ List.replicate (names.length - items.length) none)
    else none
  | _ => none

def required (field : Option Json) (value? : Json → Option α) : Option α :=
  field.bind value?

/-- A field that may be left out. -/
def defaulted (field : Option Json) (value : α) (value? : Json → Option α) : Option α :=
  match field with
  | none => some value
  | some j => value? j

/-! ### Tagged records -/

/-- The tag itself: the name of a variant, or, `inside` another tagged record, its position. -/
def variant? (variants : List String) (inside : Bool) : Json → Option String
  | text s => if variants.contains s then some s else none
  | integer v => if inside && 0 ≤ v then variants[v.toNat]? else none
  | _ => none

/-- Split a tagged record into its variant and the record of that variant. Everything in it must
be readable, known or not. -/
def tagged? (tag : String) (variants : List String) (inside : Bool) (j : Json) :
    Option (String × Json) :=
  if !j.isReadable then none
  else
    match j with
    | object members => do
      let variant ← required (← field? members tag) (variant? variants inside)
      some (variant, object (members.filter (·.1 ≠ tag)))
    | array (first :: rest) => do
      let variant ← variant? variants inside first
      some (variant, array rest)
    | _ => none

/-- A choice among names without fields: the name, or an object from the name to `null`. -/
def choice? (names : List String) : Json → Option String
  | text s => if names.contains s then some s else none
  | object [(name, null)] => if names.contains name then some name else none
  | _ => none

end Json

end FederatedSearch
