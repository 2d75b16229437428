import FederatedSearch.Proofs.Engine.Answer
import FederatedSearch.Proofs.Engine.SameTables

/-!
# Pages tile

The window of a page is handed down to the collectors as a limit, so that requests which differ in
nothing but their windows cut what they gather in different ways. All the same, their pages are cut
from one list. So the pages of two windows that meet make up the page of both windows together, and
all else in the responses is the same.

The sessions in which the requests are answered have to have the same cores. Their caches may hold
anything.

## Main results

* `Session.exists_listed` — two pages of one list
* `Session.hits_append` — pages that meet
-/

namespace FederatedSearch

namespace Call

variable [PatternEngines] {c : Call} {plan plan' : Plan} {snapshot : Snapshot} {main main' : MainResult}
  {related related' : List (String × List Facet)} {response response' : Response}
  {settings : Settings} {live : Liveness} {start stop : UInt64}

/-- **Responses by plans that are alike** are alike, and their pages are cut from the same list. -/
theorem Explains.alike {catalog : Catalog} (hgrounded : c.Grounded catalog)
    (hsnapshot : c.snapshot c.target = .ok snapshot) (hplan : plan.Alike plan')
    (h : c.Explains plan snapshot.segments main related response)
    (h' : (c.vary settings live start stop).Explains plan' snapshot.segments main' related'
      response') :
    response.Alike response' ∧ ∃ listed : List PageHit,
      response.hits = (listed.take c.request.stop.toNat).drop c.request.start.toNat ∧
        response'.hits = (listed.take stop.toNat).drop start.toNat := by
  have hfields : plan.fields = plan'.fields := Except.ok.inj (h.fields.symm.trans h'.fields)
  obtain ⟨hmain, ordered, hhits, hhits'⟩ := h.describes.alike hplan hfields h'.describes
  obtain rfl : related = related' :=
    (hgrounded.agrees_facetsOf settings live start stop hmain).of_ok h.facets h'.facets
  refine ⟨?_, ordered.map snapshot.entry, ?_, ?_⟩
  · rw [h.answer, h'.answer]
    exact c.alike_answer settings live start stop hmain related _ _ _ _
  · rw [page_eq_map hsnapshot h.page, hhits, List.map_drop, List.map_take]
  · rw [page_eq_map (c := c.vary settings live start stop) hsnapshot h'.page, hhits', List.map_drop,
      List.map_take]
    rfl

/-- Plans that only differ in the constraints are alike if the constraints are. -/
theorem Explains.plan_alike {catalog : Catalog} (hlists : c.Lists catalog) {all all' : Constraints}
    (hall : all.Alike all') (hquery : plan.query = c.narrowed all)
    (hquery' : plan'.query = c.narrowed all')
    (h : c.Explains plan snapshot.segments main related response)
    (h' : (c.vary c.settings live start stop).Explains plan' snapshot.segments main' related'
      response') : plan.Alike plan' := by
  have htables : c.SameTables (c.vary c.settings live start stop).workshop := hlists.sameTables rfl
  refine ⟨?_, htables.agrees_clauses.of_ok h.clauses h'.clauses,
    htables.agrees_ranks.of_ok h.ranks h'.ranks⟩
  rw [hquery, hquery']
  exact hall.narrow _

end Call

namespace Session

section Listed

variable [PatternEngines] {settings : Settings} {history history' : List Event}
  (hcores : (run settings history').cores = (run settings history).cores) {r : Request}
  {start stop start' stop' : UInt64}
include hcores

/-- **Two pages of one list.** -/
theorem exists_listed {schedules schedules' : List Schedule} {τ : Type} {clock : StateM τ Nat}
    {now now' : τ} {response response' : Response}
    (h : (run settings history).answer (r.page start stop) schedules clock now = .ok response)
    (h' : (run settings history').answer (r.page start' stop') schedules' clock now' = .ok response') :
    response.Alike response' ∧ ∃ listed : List PageHit,
      response.hits = (listed.take stop.toNat).drop start.toNat ∧
        response'.hits = (listed.take stop'.toNat).drop start'.toNat := by
  obtain ⟨catalog, c, plan, snapshot, main, related, hcall, hgrounded, hsound, -,
    ⟨all, hall, hquery⟩, hsnapshot, hexplains⟩ := exists_explains h
  obtain ⟨catalog', c', plan', snapshot', main', related', hcall', hgrounded', hsound', -,
    ⟨all', hall', hquery'⟩, hsnapshot', hexplains'⟩ := exists_explains h'
  have hsettings : (run settings history').engine.settings = c.settings := by
    rw [(Engine.of_call_eq_ok hcall).2.1, engine_settings_run, engine_settings_run]
  obtain ⟨-, hvary⟩ := (Call.call_page_eq_ok (cores_engine_eq hcores) hcall).mp hcall'
  rw [hsettings] at hvary
  subst hvary
  obtain ⟨hrequest, -, -⟩ := Engine.of_call_eq_ok hcall
  obtain rfl : snapshot = snapshot' := Except.ok.inj (hsnapshot.symm.trans hsnapshot')
  have hmirrors : Act.Mirrors (fun _ => False) _ _ _ _ _ :=
    Call.mirrors_constraintsPhase hgrounded.lists hgrounded'.lists clock clock
  have hconstraints : all.Alike all' := hmirrors.of_ok hsound hsound' hall hall'
  have htarget : c.snapshot c.target = .ok snapshot := by
    rw [Call.target, hrequest]
    exact hsnapshot
  have halike := hexplains.alike hgrounded htarget
    (hexplains.plan_alike hgrounded.lists hconstraints hquery hquery' hexplains') hexplains'
  rw [hrequest] at halike
  exact halike

end Listed

/-- **Pages tile.** If requests for two windows that meet and for both windows together succeed in
sessions with the same cores then the third page consists of the other two. -/
theorem hits_append [PatternEngines] (settings : Settings) {history history' history'' : List Event}
    (hcores : (run settings history).cores = (run settings history'').cores)
    (hcores' : (run settings history').cores = (run settings history'').cores) (r : Request)
    {start middle stop : UInt64} (hstart : start ≤ middle) (hstop : middle ≤ stop)
    {schedules schedules' schedules'' : List Schedule} {τ : Type} (clock : StateM τ Nat)
    {now now' now'' : τ} {first second whole : Response}
    (hfirst : (run settings history).answer (r.page start middle) schedules clock now = .ok first)
    (hsecond : (run settings history').answer (r.page middle stop) schedules' clock now' = .ok second)
    (hwhole : (run settings history'').answer (r.page start stop) schedules'' clock now'' = .ok whole) :
    first.hits ++ second.hits = whole.hits ∧ first.Alike whole ∧ second.Alike whole := by
  obtain ⟨halike, listed, hhits, hall⟩ := exists_listed hcores.symm hfirst hwhole
  obtain ⟨halike', listed', hhits', hall'⟩ := exists_listed hcores'.symm hsecond hwhole
  have hle : start.toNat ≤ middle.toNat := hstart
  have hle' : middle.toNat ≤ stop.toNat := hstop
  refine ⟨?_, halike, halike'⟩
  have hfront : first.hits = whole.hits.take (middle.toNat - start.toNat) := by
    rw [hhits, hall, List.drop_take, List.drop_take, List.take_take, Nat.min_eq_left (by omega)]
  have hback : second.hits = whole.hits.drop (middle.toNat - start.toNat) := by
    rw [hhits', hall', List.drop_drop, Nat.add_sub_cancel' hle]
  rw [hfront, hback, List.take_append_drop]

/-- Two segments of books. -/
def shelfHistory : List Event :=
  let book := fun (id : String) (key year : Int64) =>
    { id, fields := .ofList [("K", .int key), ("year", .int year)] : Document }
  [.createCore "books", .addSegment 0 [book "a1" 1 1990, book "a2" 2 1970],
    .addSegment 0 [book "a3" 2 1980]]

/-- All books by year, with their keys. -/
def booksByYear : Request :=
  ((Request.ofCore "books").sortBy { field := "year", valueType := .int }).exporting "K"

/-- The second page is asked for after the first one. -/
theorem hits_append_shelf :
    let later := shelfHistory ++ [.execute (booksByYear.page 0 1) [] (pure 0) 0]
    ∃ first second whole,
      (run (.standard 2) shelfHistory).answer (booksByYear.page 0 1) [] (pure 0 : StateM Unit Nat) () =
        .ok first ∧
      (run (.standard 2) later).answer (booksByYear.page 1 3) [] (pure 0 : StateM Unit Nat) () =
        .ok second ∧
      (run (.standard 2) later).answer (booksByYear.page 0 3) [] (pure 0 : StateM Unit Nat) () =
        .ok whole ∧
      first.hits ++ second.hits = whole.hits ∧ first.Alike whole ∧ second.Alike whole := by
  intro later
  obtain ⟨first, hfirst⟩ := exists_eq_ok (r := (run (.standard 2) shelfHistory).answer
    (booksByYear.page 0 1) [] (pure 0 : StateM Unit Nat) ()) (by decide +kernel)
  obtain ⟨second, hsecond⟩ := exists_eq_ok (r := (run (.standard 2) later).answer
    (booksByYear.page 1 3) [] (pure 0 : StateM Unit Nat) ()) (by decide +kernel)
  obtain ⟨whole, hwhole⟩ := exists_eq_ok (r := (run (.standard 2) later).answer
    (booksByYear.page 0 3) [] (pure 0 : StateM Unit Nat) ()) (by decide +kernel)
  have hcores : (run (.standard 2) shelfHistory).cores = (run (.standard 2) later).cores :=
    (cores_run_execute _ _ _ _ _ _).symm
  have hzero : (0 : UInt64) ≤ 1 := by decide
  have hone : (1 : UInt64) ≤ 3 := by decide
  exact ⟨first, second, whole, hfirst, hsecond, hwhole,
    hits_append _ hcores rfl _ hzero hone _ hfirst hsecond hwhole⟩

end Session

end FederatedSearch
