import FederatedSearch.Engine.Call

/-!
# The engine

An engine answers requests over the cores registered with it. All calls share its caches. Each call
takes a snapshot of every core that the request names, and sees nothing else of them.

## Main definitions

* `Engine` — the engine; `create`, `register`
* `Engine.execute` — answer a request
* `Engine.stats` — what each core holds
-/

namespace FederatedSearch

/-- An engine with its cores. -/
structure Engine where
  settings : Settings
  cores : NameMap Core := .empty
  caches : Caches

/-- What a core holds. -/
structure CoreStats where
  name : String
  segments : Nat
  /-- The number of live documents. -/
  docs : Nat
deriving DecidableEq, Inhabited, Repr

namespace Engine

/-- An engine without cores, if the settings are valid. -/
def create (settings : Settings) : Except Failure Engine := do
  settings.validate
  return { settings, caches := .empty settings.cachedQueries }

/-- Register a core under its name, in place of any other core of that name. -/
def register (e : Engine) (core : Core) : Engine :=
  { e with cores := e.cores.insert core.name core }

/-- Whether a registered core has the segment. -/
def holds (e : Engine) : Liveness := fun id =>
  e.cores.values.any fun core => core.segments.any (·.identity = id)

/-- What each core holds, in the order of their names. -/
def stats (e : Engine) : List CoreStats :=
  e.cores.values.map fun core =>
    let s := Snapshot.ofCore core
    ⟨core.name, s.segments.length, s.liveCount⟩

/-- Snapshots of cores; the first core that is not registered is reported. -/
def snapshots (e : Engine) (names : List String) : Except Failure (NameMap Snapshot) := do
  let entries ← names.mapM fun name =>
    match e.cores.find? name with
    | some core => .ok (name, Snapshot.ofCore core)
    | none => .error (.unknownCore name)
  return .ofList entries

/-- Set up the call for a request. `held` says which segments are in use outside the engine. -/
def call (e : Engine) (held : Liveness) (r : Request) : Except Failure Call := do
  r.validate
  let names := r.referencedCores
  let isSingle := names.length = 1 && r.unites.isEmpty && r.relationalFilter.isNone &&
    r.exportKey.isNone
  return {
    request := r
    settings := e.settings
    snapshots := ← e.snapshots names
    live := fun id => e.holds id || held id
    isFederated := !isSingle }

/-- Answer a request, reading the time from `clock`, with the searches of the call on the given schedules.
The caches are kept even if the call fails. -/
def execute [PatternEngines] {m : Type → Type} [Monad m] (clock : m Nat) (e : Engine) (held : Liveness)
    (r : Request) (schedules : List Schedule) : m (Except Failure Response × Engine) := do
  match e.call held r with
  | .error failure => return (.error failure, e)
  | .ok call =>
    let (response, state) ← (call.respond clock).run { caches := e.caches, schedules }
    return (response, { e with caches := state.caches })

end Engine

end FederatedSearch
