import FederatedSearch.Failure
import FederatedSearch.Hit.BestPerKey
import FederatedSearch.Json.Reader
import FederatedSearch.Json.Shape

/-!
# Settings

The settings of an engine, with defaults for whatever a settings file leaves out. How many groups a
search may have by default depends on the machine, so that number is a parameter here.

## Main definitions

* `Settings` — the settings; `Settings.standard`, `Settings.validate`
* `Settings.ofText?` — the settings in a file
-/

namespace FederatedSearch

/-- The settings of an engine. -/
structure Settings where
  /-- The greatest number of groups in a search. -/
  concurrency : Nat
  /-- How many queries have their key sets remembered. -/
  cachedQueries : Nat := 256
  /-- Whether responses say how long each phase took. -/
  recordTimings : Bool := true
  /-- How many exchanges an update of a shared record may try. -/
  retryBudget : Nat := BestPerKey.defaultBudget
deriving DecidableEq, Inhabited, Repr

namespace Settings

/-- The settings used when nothing else is asked for. -/
def standard (machineConcurrency : Nat) : Settings := { concurrency := machineConcurrency }

def validate (s : Settings) : Except Failure Unit :=
  if s.concurrency = 0 then .error (.settings .noConcurrency)
  else if s.cachedQueries = 0 then .error (.settings .noCachedQueries)
  else .ok ()

def fieldNames : List String :=
  ["concurrency", "key_cache_queries", "record_timings", "cas_retry_budget"]

/-- Read settings, taking from `base` what the document leaves out. -/
def ofJson? (base : Settings) (j : Json) : Option Settings := do
  let [concurrency, cachedQueries, recordTimings, retryBudget] ← j.fields? fieldNames | none
  let count? := fun j : Json => j.toUInt64?.map (·.toNat)
  some {
    concurrency := ← Json.defaulted concurrency base.concurrency count?
    cachedQueries := ← Json.defaulted cachedQueries base.cachedQueries count?
    recordTimings := ← Json.defaulted recordTimings base.recordTimings Json.toBool?
    retryBudget := ← Json.defaulted retryBudget base.retryBudget count? }

/-- The settings that a text holds, if they are valid. -/
def ofText? (base : Settings) (text : String) : Except Failure Settings := do
  match (Json.read? text).bind (ofJson? base) with
  | none => .error .malformedDocument
  | some s =>
    s.validate
    return s

end Settings

end FederatedSearch
