import FederatedSearch.Document.Json
import FederatedSearch.Failure
import FederatedSearch.Index.DocumentCore
import FederatedSearch.Json.Reader

/-!
# Fixtures

A fixture is a JSON document that describes cores: their names, and their documents segment by
segment.

## Main definitions

* `CoreFixture` — the description of a core; `CoreFixture.load` builds the core
* `CoreFixture.ofText?` — the descriptions in a fixture file
-/

namespace FederatedSearch

/-- The description of a core. -/
structure CoreFixture where
  name : String
  segments : List (List Document)
deriving DecidableEq, Inhabited

namespace CoreFixture

def ofJson? (j : Json) : Option CoreFixture := do
  let [name, segments] ← j.fields? ["name", "segments"] | none
  some {
    name := ← Json.required name Json.toText?
    segments := ← Json.required segments (Json.toList? (Json.toList? Document.ofJson?)) }

/-- All cores of a fixture. -/
def allOfJson? (j : Json) : Option (List CoreFixture) := do
  let [cores] ← j.fields? ["cores"] | none
  Json.required cores (Json.toList? ofJson?)

/-- All cores that a text describes. -/
def ofText? (text : String) : Except Failure (List CoreFixture) :=
  match (Json.read? text).bind allOfJson? with
  | some fixtures => .ok fixtures
  | none => .error .malformedDocument

/-- Build the core. -/
def load (f : CoreFixture) : Minting DocumentCore := DocumentCore.ofSegments f.name f.segments

end CoreFixture

end FederatedSearch
