import FederatedSearch.Proofs.Search.Arrivals

/-!
# Searches of a single group

A group that is the only one of a search is not interfered with, whenever its turns come. So the search comes
to what the run of the group comes to when it takes its steps alone. The same holds of matches that arrive
one at a time, each of which is taken in before the next one arrives.

Some collectors can only fail when groups interfere with each other. Where they do not, such a collector
succeeds whenever the segments can be searched.

## Main definitions

* `Gathering.HeadsFor` — what is left of a single group comes to a given end
* `Collector.Steady` — a collector that does not fail when it takes its steps alone

## Main results

* `Gathering.result_gather_singleton` — a gathering of one group
* `Steady.exists_searchGroups`, `Steady.exists_deliver` — searches of one group, and arrivals
-/

namespace FederatedSearch

namespace Gathering

variable {P σ : Type} {outcome : Except Failure P} {t : σ}

/-- The only group comes to this outcome, and leaves this state, when it takes the rest of its steps. -/
inductive HeadsFor (outcome : Except Failure P) (t : σ) : Gathering σ P → Prop
  | waiting {job : Process σ P} {s : σ} (h : job.alone.result s = (outcome, t)) :
      HeadsFor outcome t ⟨s, [⟨.waiting job, none⟩], false, none⟩
  | running {rest : Process σ P} {s : σ} (h : rest.alone.result s = (outcome, t)) :
      HeadsFor outcome t ⟨s, [⟨.running rest, none⟩], false, none⟩
  | failing {failure : Failure} (h : outcome = .error failure) :
      HeadsFor outcome t ⟨t, [⟨.failing failure, none⟩], true, none⟩
  | failed {failure : Failure} (h : outcome = .error failure) :
      HeadsFor outcome t ⟨t, [⟨.ended, none⟩], true, some failure⟩
  | published {p : P} (h : outcome = .ok p) : HeadsFor outcome t ⟨t, [⟨.ended, some p⟩], false, none⟩

theorem HeadsFor.step {g : Gathering σ P} (h : HeadsFor outcome t g) {turn : GroupTurn}
    (hturn : turn.spurious = false) : HeadsFor outcome t (g.step turn) := by
  obtain ⟨i, spurious⟩ := turn
  obtain rfl : spurious = false := hturn
  rcases i with _ | i
  · cases h with
    | waiting h => exact .running h
    | @running rest s h =>
      cases rest with
      | step update next => exact .running h
      | done r =>
        obtain ⟨rfl, rfl⟩ := Prod.mk.injEq .. ▸ h
        cases r with
        | ok p => exact .published rfl
        | error failure => exact .failing rfl
    | failing h => exact .failed h
    | failed h => exact .failed h
    | published h => exact .published h
  · have hnone : g.groups[i + 1]? = none := by cases h <;> rfl
    rwa [step_none hnone]

theorem HeadsFor.run {g : Gathering σ P} (h : HeadsFor outcome t g) {turns : Schedule}
    (hturns : ∀ turn ∈ turns, turn.spurious = false) : HeadsFor outcome t (g.run turns) := by
  induction turns generalizing g with
  | nil => exact h
  | cons turn turns ih =>
    obtain ⟨hturn, hrest⟩ := List.forall_mem_cons.mp hturns
    exact ih (h.step hturn) hrest

/-- **A gathering of one group** comes to what the group comes to on its own. -/
theorem result_gather_singleton (core : String) {schedule : Schedule}
    (hschedule : ∀ turn ∈ schedule, turn.spurious = false) (job : Process σ P) (s : σ) :
    (gather core schedule [job]).result s =
      ((job.alone.result s).1.map ([·]), (job.alone.result s).2) := by
  have hturns : ∀ turn ∈ turnsOf schedule s [job], turn.spurious = false := fun turn hmem =>
    Bool.eq_false_iff.mpr fun htrue =>
      absurd (hschedule turn (mem_of_mem_turnsOf hmem htrue)) (by rw [htrue]; decide)
  have hstart : HeadsFor (job.alone.result s).1 (job.alone.result s).2 (start s [job]) := .waiting rfl
  have hends := hstart.run hturns
  have hended := ended_of_turnsOf schedule s [job]
  rw [result_gather]
  generalize (start s [job]).run (turnsOf schedule s [job]) = g at hends hended
  cases hends with
  | waiting => exact nomatch hended _ (List.mem_singleton_self _)
  | running => exact nomatch hended _ (List.mem_singleton_self _)
  | failing => exact nomatch hended _ (List.mem_singleton_self _)
  | failed h => rw [h]; rfl
  | published h => rw [h]; rfl

end Gathering

variable [PatternEngines]

namespace Collector

open Process

variable {B L P F : Type} {c : Collector B L P F} {inv : B → Prop}

/-- As long as something holds of the board, it goes on to hold, and nothing fails that nobody interferes
with. -/
structure Steady (c : Collector B L P F) (inv : B → Prop) : Prop where
  board : inv c.board
  start : ∀ s, inv s → c.start.alone.Ends s (fun _ => inv) fun _ => False
  collect : ∀ bound hit l s, inv s → (c.collect bound hit l).alone.Ends s (fun _ => inv) fun _ => False
  finish : ∀ l s, inv s → (c.finish l).alone.Ends s (fun _ => inv) fun _ => False
  merge : ∀ s partials, ∃ x, c.merge s partials = .ok x

section Steady

variable (h : c.Steady inv)
include h

variable {fields : List String} {query : Query}

/-- A group whose segments can be searched. -/
theorem Steady.ends_readGroup (hplain : c.Plain .docs fields) {group : List Placed}
    (hcan : CanSearch query group) {s : B} (hs : inv s) :
    (c.readGroup query group).alone.Ends s (fun _ => inv) fun _ => False := by
  simp only [readGroup, Process.alone_bind, Process.alone_foldlM]
  refine (h.start s hs).bind fun l t ht => ?_
  refine (Act.ends_foldlM (fun _ _ => inv) (fun _ placed hmem l u hu => ?_) [] ht).bind
    fun l u hu => h.finish l u hu
  rw [hplain.readSegment_docs (hcan placed hmem), Process.alone_foldlM]
  exact Act.ends_foldlM (fun _ _ => inv) (fun _ e _ l v hv => h.collect _ _ l v hv) [] hu

/-- **A search of at most one group** succeeds if the segments can be searched. -/
theorem Steady.exists_searchGroups (hplain : c.Plain .docs fields) {view : L → List String}
    (hmodest : c.Modest view) {catalog : Catalog} (w : Workshop) {groups : List (List Placed)}
    (hlists : ∀ placed ∈ groups.flatten, catalog.Lists placed.segment) {columns : KeyColumns}
    (hcolumns : columns.Sound catalog) {schedule : Schedule}
    (hschedule : ∀ turn ∈ schedule, turn.spurious = false) (hgroups : groups.length ≤ 1)
    (hcan : CanSearch query groups.flatten) (core : String) :
    ∃ x, ((c.searchGroups w schedule core groups query).result (columns, c.board)).1 = .ok x := by
  have hgather : ∃ partials, ((Gathering.gather core schedule
      (groups.map (c.runGroup w query))).result (columns, c.board)).1 = .ok partials := by
    rcases groups with _ | ⟨group, _ | ⟨_, _⟩⟩
    · have hends : Meets (List.Forall₂ (fun _ _ => True) []) (fun _ => False)
          ((Gathering.gather core schedule (([] : List (List Placed)).map (c.runGroup w query))).result
            (columns, c.board)).1 := Gathering.endsOnly_gather nofun core schedule _
      exact hends.exists_ok.imp fun _ h => h.1
    · have hgroup : [group].flatten = group := List.flatten_singleton
      rw [hgroup] at hlists hcan
      obtain ⟨p, t, hp, -⟩ := (h.ends_readGroup hplain hcan h.board).exists_ok
      have hsame := ((hmodest.shadows_runGroup w query hlists).alone
        (show Besides (KeyColumns.Sound catalog) (columns, c.board) c.board from ⟨hcolumns, rfl⟩)).1
      refine ⟨[p], ?_⟩
      rw [List.map_singleton, Gathering.result_gather_singleton core hschedule, hsame, hp]
      rfl
    · simp at hgroups
  obtain ⟨partials, hpartials⟩ := hgather
  rw [result_searchGroups]
  rcases hr : (Gathering.gather core schedule (groups.map (c.runGroup w query))).result
    (columns, c.board) with ⟨failure | partials, t⟩ <;> rw [hr] at hpartials
  · exact absurd hpartials error_ne_ok
  · exact h.merge t.2 partials

omit [PatternEngines] in
/-- **Matches that arrive one at a time** are taken in without a failure. -/
theorem Steady.exists_deliver (count : Nat) (arrivals : List (Nat × Offer)) :
    ∃ x, ((c.deliver count arrivals).result c.board).1 = .ok x := by
  have harrive : ∀ (locals : List L) (arrival : Nat × Offer) (s : B), inv s →
      (c.arrive locals arrival).alone.Ends s (fun _ => inv) fun _ => False := by
    intro locals arrival s hs
    rw [arrive]
    rcases locals[arrival.1]? with _ | l
    · exact Act.ends_pure hs
    · rw [Process.alone_bind]
      exact (h.collect _ _ l s hs).bind fun _ t ht => Act.ends_pure ht
  have htaken : (c.takeIn count arrivals).alone.Ends c.board (fun _ => inv) fun _ => False := by
    simp only [takeIn, Process.alone_bind, Process.alone_foldlM, Process.alone_mapM]
    refine (Act.ends_mapM (fun _ _ => inv) (fun _ _ _ _ s hs => h.start s hs) [] [] h.board).bind
      fun locals s hs => ?_
    refine (Act.ends_foldlM (fun _ _ => inv) (fun _ arrival _ locals t ht =>
      harrive locals arrival t ht) [] hs).bind fun locals t ht => ?_
    exact Act.ends_mapM (fun _ _ => inv) (fun _ _ l _ u hu => h.finish l u hu) [] [] ht
  obtain ⟨partials, s, hr, -⟩ := htaken.exists_ok
  obtain ⟨x, hx⟩ := h.merge s partials
  refine ⟨x, ?_⟩
  rw [deliver, Act.result_bind_of_ok hr]
  exact hx

end Steady

end Collector

end FederatedSearch
