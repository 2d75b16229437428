import FederatedSearch.Proofs.Engine.Plan
import FederatedSearch.Proofs.Session

/-!
# Requests in a session

The engine of a session answers a request by setting up a call, whose snapshots are those of the
cores of the session at that time. The segments of a session can all be read, and so at any time of a
session a response comes about as every response of such a call does.

## Main definitions

* `Session.answer` — the outcome of a request

## Main results

* `Engine.call_eq_ok` — how a call is set up
* `Session.Recorded.grounded` — a call sees nothing but cores that can be read
* `Session.exists_explains` — how a response comes about
-/

namespace FederatedSearch

/-- A snapshot is taken of just the cores that are asked for. -/
theorem Engine.isSome_snapshots_iff {e : Engine} {names : List String} {snapshots : NameMap Snapshot}
    (h : e.snapshots names = .ok snapshots) (name : String) :
    (snapshots.find? name).isSome = true ↔ name ∈ names := by
  obtain ⟨entries, hentries, h⟩ := bind_eq_ok.mp h
  obtain rfl : NameMap.ofList entries = snapshots := Except.ok.inj h
  have hnames : names = entries.map (·.1) := by
    refine List.forall₂_eq_eq_eq ▸ List.forall₂_map_right_iff.mpr ((mapM_eq_ok.mp hentries).imp ?_)
    intro other entry hentry
    split at hentry
    · rw [← Except.ok.inj hentry]
    · exact nomatch hentry
  rw [← NameMap.mem_keys_iff, NameMap.mem_keys_ofList, hnames]

/-- More than the result core is involved. -/
def Request.isFederated (r : Request) : Bool :=
  !(r.referencedCores.length = 1 && r.unites.isEmpty && r.relationalFilter.isNone &&
    r.exportKey.isNone)

theorem Request.isFederated_page (r : Request) (start stop : UInt64) :
    (r.page start stop).isFederated = r.isFederated := rfl

/-- **A call** is set up if the request is valid and all cores that it names are registered. -/
theorem Engine.call_eq_ok {e : Engine} {held : Liveness} {r : Request} {c : Call} :
    e.call held r = .ok c ↔
      r.validate = .ok () ∧ ∃ snapshots, e.snapshots r.referencedCores = .ok snapshots ∧
        c = ⟨r, e.settings, snapshots, fun id => e.holds id || held id, r.isFederated⟩ := by
  constructor
  · intro h
    obtain ⟨⟨⟩, hvalid, h⟩ := bind_eq_ok.mp h
    obtain ⟨snapshots, hsnapshots, h⟩ := bind_eq_ok.mp h
    exact ⟨hvalid, snapshots, hsnapshots, (Except.ok.inj h).symm⟩
  · rintro ⟨hvalid, snapshots, hsnapshots, rfl⟩
    show (r.validate >>= fun _ => e.snapshots r.referencedCores >>= fun snapshots => _) = _
    rw [hvalid, ok_bind, hsnapshots]
    rfl

namespace Session

variable [PatternEngines] {τ : Type}

/-- The outcome of a request, with its searches on these schedules and by a clock that starts at a time. -/
def answer (s : Session) (r : Request) (schedules : List Schedule) (clock : StateM τ Nat) (now : τ) :
    Except Failure Response :=
  (s.engine.execute clock s.isHeld r schedules now).1.1

section Answer

variable {s : Session} {r : Request} {schedules : List Schedule} {clock : StateM τ Nat} {now : τ}

theorem answer_of_call {c : Call} (h : s.engine.call s.isHeld r = .ok c) :
    s.answer r schedules clock now =
      ((CallM.toAct (c.respond clock)).result (s.beginning schedules now)).1 := by
  rw [answer, Engine.execute_of_call clock s.isHeld r schedules h, engine_caches, beginning]

theorem answer_of_call_error {failure : Failure} (h : s.engine.call s.isHeld r = .error failure) :
    s.answer r schedules clock now = .error failure := by
  rw [answer, Engine.execute_of_call_error clock s.isHeld r schedules h]

/-- A response is that of the call which was set up. -/
theorem answer_eq_ok {response : Response} :
    s.answer r schedules clock now = .ok response ↔ ∃ c, s.engine.call s.isHeld r = .ok c ∧
      ((CallM.toAct (c.respond clock)).result (s.beginning schedules now)).1 = .ok response := by
  rcases hcall : s.engine.call s.isHeld r with failure | c
  · rw [answer_of_call_error hcall]
    simp
  · rw [answer_of_call hcall]
    simp

end Answer

section Recorded

variable {catalog : Catalog} {s : Session} (h : s.Recorded catalog)
include h

/-- **A call sees** nothing but cores that can be read. -/
theorem Recorded.grounded {held : Liveness} {r : Request} {c : Call}
    (hcall : s.engine.call held r = .ok c) : c.Grounded catalog := by
  obtain ⟨rfl, -, hsnapshots⟩ := Engine.of_call_eq_ok hcall
  refine ⟨h.engine.call hcall, fun name snapshot hfind => ?_, ?_⟩
  · obtain ⟨core, hcore, rfl⟩ := Engine.of_snapshots_eq_ok hsnapshots hfind
    obtain ⟨own, -, rfl⟩ := of_find?_engine hcore
    exact ⟨own.name, own.segments, rfl⟩
  · obtain ⟨snapshot, hfind⟩ := Option.isSome_iff_exists.mp
      ((Engine.isSome_snapshots_iff hsnapshots _).mpr c.request.resultsFrom_mem)
    refine ⟨snapshot, ?_⟩
    rw [Call.snapshot, Call.target, hfind]

end Recorded

/-- **How a response comes about** at any time of a session. -/
theorem exists_explains {settings : Settings} {history : List Event} {r : Request}
    {schedules : List Schedule} {clock : StateM τ Nat} {now : τ} {response : Response}
    (h : (run settings history).answer r schedules clock now = .ok response) :
    ∃ catalog c plan snapshot main related,
      (run settings history).engine.call (run settings history).isHeld r = .ok c ∧
      c.Grounded catalog ∧ ((run settings history).beginning schedules now).1.Sound catalog ∧
      ((CallM.toAct (c.planPhase clock)).result ((run settings history).beginning schedules now)).1 =
        .ok plan ∧
      (∃ all, ((CallM.toAct (c.constraintsPhase clock)).result
        ((run settings history).beginning schedules now)).1 = .ok all ∧ plan.query = c.narrowed all) ∧
      c.snapshot r.resultsFrom = .ok snapshot ∧
      c.Explains plan snapshot.segments main related response := by
  obtain ⟨catalog, hrecorded⟩ := exists_recorded settings history
  obtain ⟨c, hcall, hresponse⟩ := answer_eq_ok.mp h
  have hgrounded := hrecorded.grounded hcall
  obtain ⟨plan, snapshot, main, related, hplan, hquery, hsnapshot, hexplains⟩ :=
    hgrounded.exists_explains clock (s := (run settings history).beginning schedules now)
      hrecorded.caches hresponse
  obtain ⟨rfl, -, -⟩ := Engine.of_call_eq_ok hcall
  exact ⟨catalog, c, plan, snapshot, main, related, hcall, hgrounded, hrecorded.caches, hplan, hquery,
    hsnapshot, hexplains⟩

end Session

end FederatedSearch
