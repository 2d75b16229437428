import FederatedSearch.Collector.Facets
import FederatedSearch.Json.Value
import FederatedSearch.Keys.KeyBits

/-!
# Responses

The answer to a request: a page of hits with their identifiers, how many hits there are in all, and
the facets and keys that were asked for.

## Main definitions

* `Response` — the answer; `Response.toJson`
* `PhaseTime` — how long a phase of the call took
-/

namespace FederatedSearch

/-- A document of the page. -/
structure PageHit where
  id : String
  score : Binary32
deriving DecidableEq, Inhabited, Repr

/-- How long a phase of a call took. -/
structure PhaseTime where
  phase : String
  core : String
  micros : Nat
deriving DecidableEq, Inhabited, Repr

/-- The answer to a request. -/
structure Response where
  /-- The number of matching documents, or of groups if hits are collapsed. -/
  totalHits : Nat
  hits : List PageHit
  /-- The facets by core. -/
  facets : NameMap (List Facet)
  exportedKeys : Option KeyBits
  /-- The phases of the call in order, if they are recorded. -/
  timings : List PhaseTime

def KeyBits.toJson (s : KeyBits) : Json := .array (s.toList.map fun key => .integer (Int.ofNat key))

def PageHit.toJson (h : PageHit) : Json := .object [("id", .text h.id), ("score", .single h.score)]

def Facet.toJson (f : Facet) : Json :=
  .object [("field", .text f.field),
    ("counts", .array (f.counts.map fun c =>
      .object [("term", .text c.term), ("count", .integer c.count)]))]

def PhaseTime.toJson (t : PhaseTime) : Json :=
  .object [("phase", .text t.phase), ("core", .text t.core), ("micros", .integer t.micros)]

namespace Response

/-- Exported keys and timings are left out if there are none. -/
def toJson (r : Response) : Json :=
  .object <|
    [("total_hits", .integer r.totalHits), ("hits", .array (r.hits.map PageHit.toJson)),
      ("facets", .object (r.facets.map fun fs => Json.array (fs.map Facet.toJson)).entries)] ++
    (match r.exportedKeys with
      | some keys => [("exported_keys", keys.toJson)]
      | none => []) ++
    if r.timings.isEmpty then [] else [("timings", .array (r.timings.map PhaseTime.toJson))]

end Response

end FederatedSearch
