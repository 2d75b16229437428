import FederatedSearch.Document.Basic
import FederatedSearch.Json.Shape

/-!
# Documents in JSON

A value is written as the plain scalar it is. Reading prefers the integer reading: a whole number
beyond 64 signed bits becomes a double.
-/

namespace FederatedSearch

def FieldValue.ofJson? : Json → Option FieldValue
  | .text s => some (.text s)
  | j =>
    match j.toInt64? with
    | some v => some (.int v)
    | none => j.toDouble?.map .double

def FieldValue.toJson : FieldValue → Json
  | int v => .integer v.toInt
  | double x => .double x
  | text s => .text s

def Document.ofJson? (j : Json) : Option Document := do
  let [id, fields] ← j.fields? ["id", "fields"] | none
  some {
    id := ← Json.required id Json.toText?
    fields := ← Json.defaulted fields .empty (Json.toMap? FieldValue.ofJson?) }

def Document.toJson (d : Document) : Json :=
  .object [("id", .text d.id), ("fields", .object (d.fields.map FieldValue.toJson).entries)]

end FederatedSearch
