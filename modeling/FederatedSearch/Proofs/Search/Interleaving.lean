import FederatedSearch.Pattern.Standard
import FederatedSearch.Proofs.Process.Ensures
import FederatedSearch.Proofs.Search.Turns
import FederatedSearch.Search.Run
import Mathlib.Data.List.Nodup

/-!
# Groups in any order

The steps of groups that run at the same time may be interleaved in any way. A group that looks at the
flag before it is raised runs, even if another group has failed by then; one that looks later does not.
So which groups run at all depends on the schedule, and several of them may fail. All the same there
are only two ways in which it can end: all groups have run and succeeded, and their results are there
in the order of the groups; or some run has failed, and one such failure is noted.

## Implementation notes

What a schedule executes is a list of runs (`Gathering.executions`), each with what it came to. A run may
depend on the state that the groups share, and so on what other groups did between its steps. Nothing is
assumed about that: the invariant `Gathering.Accounts` ties what is seen of a group to the runs so far,
whatever they came to.

## Main definitions

* `Gathering.executions`, `Collector.runsOn` — the runs that come to an end on a schedule
* `Gathering.Accounts` — the runs account for what is seen of the groups

## Main results

* `Accounts.step`, `Accounts.run` — one turn, and all turns of a schedule
* `Accounts.outcome_cases`, `Gathering.gather_cases` — the two ways in which it can end
* `Collector.searchOn_gathers` — searches
-/

namespace FederatedSearch

namespace Gathering

variable {P σ : Type}

/-- The run of a group that is over, when this is the turn in which the group makes it known. -/
def executed (g : Gathering σ P) (turn : GroupTurn) : List (Nat × Except Failure P) :=
  match g.groups[turn.group]? with
  | some ⟨.running (.done r), _⟩ => [(turn.group, r)]
  | _ => []

/-- The runs that come to an end in these turns, in their order. -/
def executions (g : Gathering σ P) : Schedule → List (Nat × Except Failure P)
  | [] => []
  | turn :: turns => g.executed turn ++ (g.step turn).executions turns

/-! ### Runs account for the groups -/

/-- What is seen of group `i` when these runs are over. -/
def Accounted (jobs : List (Process σ P)) (runs : List (Nat × Except Failure P)) (failed : Bool)
    (i : Nat) :
    GroupState σ P → Prop
  | ⟨.waiting job, result⟩ => jobs[i]? = some job ∧ result = none ∧ ∀ r, (i, r) ∉ runs
  | ⟨.running rest, result⟩ =>
    (∃ job, jobs[i]? = some job ∧ job.LeadsTo rest) ∧ result = none ∧ ∀ r, (i, r) ∉ runs
  | ⟨.failing failure, result⟩ => result = none ∧ (i, .error failure) ∈ runs ∧ failed = true
  | ⟨.ended, some p⟩ => (i, .ok p) ∈ runs
  | ⟨.ended, none⟩ => failed = true ∧ ∀ p, (i, .ok p) ∉ runs

/-- Some group is about to note its failure. -/
def Noting (g : Gathering σ P) : Prop :=
  ∃ (i : Nat) (failure : Failure) (result : Option P), g.groups[i]? = some ⟨.failing failure, result⟩

/-- The runs so far account for what is seen of the groups: no group has run twice, each run is one that its
job can lead to, each group has come as far as its run tells, and a failure that is noted is that of some
run. Once the flag is up, a failure is noted or about to be. -/
structure Accounts (jobs : List (Process σ P)) (runs : List (Nat × Except Failure P))
    (g : Gathering σ P) : Prop where
  once : (runs.map (·.1)).Nodup
  ran : ∀ i r, (i, r) ∈ runs → ∃ job, jobs[i]? = some job ∧ job.LeadsTo (.done r)
  groups : ∀ i group, g.groups[i]? = some group → Accounted jobs runs g.failed i group
  noted : ∀ failure, g.firstFailure = some failure → ∃ i, (i, .error failure) ∈ runs
  raised : g.failed = true → g.firstFailure.isSome = true ∨ g.Noting

theorem accounts_start (s : σ) (jobs : List (Process σ P)) : Accounts jobs [] (start s jobs) where
  once := List.nodup_nil
  ran := nofun
  groups i group hget := by
    rw [start, List.getElem?_map, Option.map_eq_some_iff] at hget
    obtain ⟨job, hjob, rfl⟩ := hget
    exact ⟨hjob, rfl, nofun⟩
  noted := nofun
  raised := nofun

theorem Accounted.mono {jobs : List (Process σ P)} {runs more : List (Nat × Except Failure P)}
    {failed failed' : Bool} {i : Nat} {group : GroupState σ P} (h : Accounted jobs runs failed i group)
    (hfailed : failed = true → failed' = true) (hmem : ∀ r, (i, r) ∈ more ↔ (i, r) ∈ runs) :
    Accounted jobs more failed' i group := by
  rcases group with ⟨job | rest | failure | _, _ | p⟩ <;> simp only [Accounted, hmem] at h ⊢
  all_goals first
    | exact h
    | exact ⟨hfailed h.1, h.2⟩
    | exact ⟨h.1, h.2.1, hfailed h.2.2⟩

section Step

variable {jobs : List (Process σ P)} {runs more : List (Nat × Except Failure P)} {g : Gathering σ P}
  {i : Nat} {old state : GroupState σ P}

/-- A turn changes what is seen of its own group only. -/
theorem Accounts.groups_set (h : Accounts jobs runs g) (hget : g.groups[i]? = some old) {failed : Bool}
    (hfailed : g.failed = true → failed = true)
    (hmem : ∀ j, j ≠ i → ∀ r, (j, r) ∈ more ↔ (j, r) ∈ runs)
    (hstate : Accounted jobs more failed i state) :
    ∀ j group, (g.set i state).groups[j]? = some group → Accounted jobs more failed j group := by
  intro j group hj
  by_cases hji : j = i
  · subst hji
    rw [getElem?_set_self hget] at hj
    rwa [← Option.some.inj hj]
  · rw [getElem?_set_of_ne g hji] at hj
    exact (h.groups j group hj).mono hfailed (hmem j hji)

/-- A group that was about to note its failure still is, if another one takes a turn. -/
theorem Accounts.raised_set (h : Accounts jobs runs g) (hget : g.groups[i]? = some old)
    (hold : ∀ failure, old.progress ≠ .failing failure) (hfailed : g.failed = true) :
    g.firstFailure.isSome = true ∨ (g.set i state).Noting := by
  rcases h.raised hfailed with hsome | ⟨j, failure, result, hj⟩
  · exact .inl hsome
  · have hji : j ≠ i := by
      rintro rfl
      rw [Option.some.inj (hget.symm.trans hj)] at hold
      exact hold failure rfl
    refine .inr ⟨j, failure, result, ?_⟩
    rw [getElem?_set_of_ne g hji]
    exact hj

/-- A turn that ends no run and leaves flag and note alone. -/
theorem Accounts.set (h : Accounts jobs runs g) (hget : g.groups[i]? = some old)
    (hold : ∀ failure, old.progress ≠ .failing failure) (state : GroupState σ P)
    (hstate : Accounted jobs runs g.failed i state) : Accounts jobs runs (g.set i state) where
  once := h.once
  ran := h.ran
  groups := h.groups_set hget id (fun _ _ _ => Iff.rfl) hstate
  noted := h.noted
  raised := h.raised_set hget hold

/-- The state that the groups share is not looked at. -/
theorem Accounts.with_store (h : Accounts jobs runs g) (s : σ) :
    Accounts jobs runs { g with store := s } := { h with }

/-- A run is over. -/
theorem Accounts.once_append (h : Accounts jobs runs g) {r : Except Failure P} {result : Option P}
    (hget : g.groups[i]? = some ⟨.running (.done r), result⟩) :
    ((runs ++ [(i, r)]).map (·.1)).Nodup := by
  obtain ⟨-, -, hnew⟩ := h.groups i _ hget
  rw [List.map_append, List.nodup_append]
  refine ⟨h.once, List.nodup_singleton _, ?_⟩
  rintro _ hmem _ hother rfl
  obtain ⟨⟨_, r'⟩, hrun, rfl⟩ := List.mem_map.mp hmem
  obtain rfl := List.mem_singleton.mp hother
  exact hnew r' hrun

theorem Accounts.ran_append (h : Accounts jobs runs g) {r : Except Failure P} {result : Option P}
    (hget : g.groups[i]? = some ⟨.running (.done r), result⟩) :
    ∀ j r', (j, r') ∈ runs ++ [(i, r)] → ∃ job, jobs[j]? = some job ∧ job.LeadsTo (.done r') := by
  intro j r' hmem
  rcases List.mem_append.mp hmem with hmem | hmem
  · exact h.ran j r' hmem
  · obtain ⟨rfl, rfl⟩ := Prod.mk.inj (List.mem_singleton.mp hmem)
    exact (h.groups j _ hget).1

theorem mem_append_of_ne {j : Nat} (hj : j ≠ i) (r r' : Except Failure P) :
    (j, r') ∈ runs ++ [(i, r)] ↔ (j, r') ∈ runs := by
  simp [hj]

/-- A group stores its result. -/
theorem Accounts.set_publish (h : Accounts jobs runs g) {p : P} {result : Option P}
    (hget : g.groups[i]? = some ⟨.running (.done (.ok p)), result⟩) :
    Accounts jobs (runs ++ [(i, .ok p)]) (g.set i ⟨.ended, some p⟩) where
  once := h.once_append hget
  ran := h.ran_append hget
  groups := h.groups_set hget id (fun _ hj _ => mem_append_of_ne hj _ _)
    (List.mem_append_right _ (List.mem_singleton_self _))
  noted failure hnoted := (h.noted failure hnoted).imp fun _ hmem => List.mem_append_left _ hmem
  raised := h.raised_set hget nofun

/-- A group raises the flag. -/
theorem Accounts.set_raise (h : Accounts jobs runs g) {failure : Failure} {result : Option P}
    (hget : g.groups[i]? = some ⟨.running (.done (.error failure)), result⟩) :
    Accounts jobs (runs ++ [(i, .error failure)])
      ({ g with failed := true }.set i ⟨.failing failure, result⟩) where
  once := h.once_append hget
  ran := h.ran_append hget
  groups := h.groups_set hget (fun _ => rfl) (fun _ hj _ => mem_append_of_ne hj _ _)
    ⟨(h.groups i _ hget).2.1, List.mem_append_right _ (List.mem_singleton_self _), rfl⟩
  noted failure hnoted := (h.noted failure hnoted).imp fun _ hmem => List.mem_append_left _ hmem
  raised _ := .inr ⟨i, failure, result, getElem?_set_self (g := { g with failed := true }) hget _⟩

/-- A group notes its failure, unless there is one already. -/
theorem Accounts.set_note (h : Accounts jobs runs g) {result : Option P} {failure : Failure}
    (hget : g.groups[i]? = some ⟨.failing failure, result⟩) :
    Accounts jobs runs
      ({ g with firstFailure := g.firstFailure.or (some failure) }.set i ⟨.ended, result⟩) where
  once := h.once
  ran := h.ran
  groups := by
    obtain ⟨rfl, hmem, hfailed⟩ := h.groups i _ hget
    refine h.groups_set hget id (fun _ _ _ => Iff.rfl) ⟨hfailed, fun p hok => ?_⟩
    -- no group runs twice, so this one has not succeeded as well
    have hsame := List.inj_on_of_nodup_map h.once hmem hok rfl
    exact nomatch hsame
  noted other hother := by
    rw [firstFailure_set] at hother
    rcases hfirst : g.firstFailure with _ | first
    · rw [hfirst] at hother
      obtain rfl := Option.some.inj hother
      exact ⟨i, (h.groups i _ hget).2.1⟩
    · rw [hfirst] at hother
      obtain rfl := Option.some.inj hother
      exact h.noted _ hfirst
  raised _ := .inl (by cases hfirst : g.firstFailure <;> simp)

end Step

/-- **One turn** keeps the account. -/
theorem Accounts.step {jobs : List (Process σ P)} {runs : List (Nat × Except Failure P)}
    {g : Gathering σ P} (h : Accounts jobs runs g) (turn : GroupTurn) :
    Accounts jobs (runs ++ g.executed turn) (g.step turn) := by
  have hmoves := moves_step g turn
  generalize g.step turn = g' at hmoves
  cases hmoves with
  | unknown hget => simpa [executed, hget] using h
  | ended hget => simpa [executed, hget] using h
  | enter hget _ =>
    obtain ⟨hjob, hresult, hnone⟩ := h.groups _ _ hget
    have hset := h.set hget nofun ⟨.running _, _⟩ ⟨⟨_, hjob, .refl _⟩, hresult, hnone⟩
    simpa [executed, hget] using hset
  | skip hget hfailed =>
    obtain ⟨-, rfl, hnone⟩ := h.groups _ _ hget
    have hset := h.set hget nofun ⟨.ended, none⟩ ⟨hfailed, fun p => hnone _⟩
    simpa [executed, hget] using hset
  | @access update next result hget =>
    obtain ⟨⟨job, hjob, hleads⟩, hresult, hnone⟩ := h.groups _ _ hget
    have hrest := hleads.trans (.step turn.spurious g.store (.refl _))
    have hset := (h.with_store (update turn.spurious g.store)).set hget nofun
      ⟨.running _, _⟩ ⟨⟨job, hjob, hrest⟩, hresult, hnone⟩
    simpa [executed, hget] using hset
  | publish hget => simpa [executed, hget] using h.set_publish hget
  | raise hget => simpa [executed, hget] using h.set_raise hget
  | note hget => simpa [executed, hget] using h.set_note hget

/-- **All turns** of a schedule. -/
theorem Accounts.run {jobs : List (Process σ P)} {runs : List (Nat × Except Failure P)}
    {g : Gathering σ P} (h : Accounts jobs runs g) (turns : Schedule) :
    Accounts jobs (runs ++ g.executions turns) (g.run turns) := by
  induction turns generalizing runs g with
  | nil => rwa [executions, List.append_nil]
  | cons turn turns ih =>
    rw [run_cons, executions, ← List.append_assoc]
    exact ih (h.step turn)

/-! ### The end -/

section End

variable {jobs : List (Process σ P)} {runs : List (Nat × Except Failure P)} {g : Gathering σ P}

/-- The results of groups that have all succeeded. -/
theorem outcome_eq_ok (core : String) (hfirst : g.firstFailure = none) {partials : List P}
    (hall : List.Forall₂ (fun group p => group.result = some p) g.groups partials) :
    g.outcome core = .ok partials := by
  rw [outcome, hfirst]
  exact mapM_eq_ok.mpr (hall.imp fun group p hp => by rw [hp])

theorem outcome_eq_error (core : String) {failure : Failure} (hfirst : g.firstFailure = some failure) :
    g.outcome core = .error failure := by
  rw [outcome, hfirst]

/-- If nothing is noted in the end, the flag is down. -/
theorem Accounts.failed_eq_false (h : Accounts jobs runs g)
    (hended : ∀ group ∈ g.groups, group.progress = .ended) (hfirst : g.firstFailure = none) :
    g.failed = false := by
  rw [Bool.eq_false_iff]
  intro hfailed
  rcases h.raised hfailed with hsome | ⟨j, failure, result, hj⟩
  · rw [hfirst] at hsome
    exact nomatch hsome
  · exact nomatch hended _ (List.mem_of_getElem? hj)

/-- If nothing is noted in the end, each group has run and has its result. -/
theorem Accounts.exists_results (h : Accounts jobs runs g)
    (hended : ∀ group ∈ g.groups, group.progress = .ended) (hfirst : g.firstFailure = none) :
    ∃ partials, List.Forall₂ (fun group p => group.result = some p) g.groups partials ∧
      ∀ i p, partials[i]? = some p → (i, .ok p) ∈ runs := by
  have hrun : ∀ i group, g.groups[i]? = some group →
      ∃ p, group.result = some p ∧ (i, .ok p) ∈ runs := by
    rintro i ⟨progress, result⟩ hget
    obtain rfl : progress = .ended := hended _ (List.mem_of_getElem? hget)
    have hgroup := h.groups i _ hget
    cases result with
    | none => exact absurd ((h.failed_eq_false hended hfirst).symm.trans hgroup.1) nofun
    | some p => exact ⟨p, rfl, hgroup⟩
  obtain ⟨partials, hall⟩ : ∃ partials,
      List.Forall₂ (fun group p => group.result = some p) g.groups partials := by
    refine exists_forall₂ fun group hmem => ?_
    obtain ⟨i, hget⟩ := List.mem_iff_getElem?.mp hmem
    obtain ⟨p, hp, -⟩ := hrun i group hget
    exact ⟨p, hp⟩
  refine ⟨partials, hall, fun i p hp => ?_⟩
  obtain ⟨group, hget, hgroup⟩ := exists_getElem?_of_forall₂ hall hp
  obtain ⟨p', hp', hmem⟩ := hrun i group hget
  rwa [← Option.some.inj (hp'.symm.trans hgroup)]

/-- **The two ways to end**: with a result of each group, or with a failure of some run. -/
theorem Accounts.outcome_cases (h : Accounts jobs runs g) (hlength : g.groups.length = jobs.length)
    (hended : ∀ group ∈ g.groups, group.progress = .ended) (core : String) :
    (∃ partials, g.outcome core = .ok partials ∧ partials.length = jobs.length ∧
        (∀ i p, partials[i]? = some p ↔ (i, .ok p) ∈ runs) ∧ ∀ i failure, (i, .error failure) ∉ runs) ∨
      ∃ i failure, (i, .error failure) ∈ runs ∧ g.outcome core = .error failure := by
  rcases hfirst : g.firstFailure with _ | failure
  · left
    obtain ⟨partials, hall, hpartial⟩ := h.exists_results hended hfirst
    have hcount : partials.length = jobs.length := hall.length_eq.symm.trans hlength
    have hsome : ∀ i r, (i, r) ∈ runs → ∃ p, partials[i]? = some p ∧ r = .ok p := by
      intro i r hmem
      obtain ⟨job, hjob, -⟩ := h.ran i r hmem
      have hi : i < partials.length := hcount ▸ (List.getElem?_eq_some_iff.mp hjob).1
      have hp := List.getElem?_eq_getElem hi
      have hsame := List.inj_on_of_nodup_map h.once hmem (hpartial i _ hp) rfl
      exact ⟨_, hp, (Prod.mk.inj hsame).2⟩
    refine ⟨partials, outcome_eq_ok core hfirst hall, hcount, fun i p => ⟨hpartial i p, fun hmem => ?_⟩,
      fun i failure hmem => ?_⟩
    · obtain ⟨p', hp', hr⟩ := hsome i _ hmem
      rw [hp', Except.ok.inj hr]
    · obtain ⟨p, -, hr⟩ := hsome i _ hmem
      exact nomatch hr
  · right
    obtain ⟨i, hmem⟩ := h.noted failure hfirst
    exact ⟨i, failure, hmem, outcome_eq_error core hfirst⟩

end End

theorem accounts_turnsOf (schedule : Schedule) (s : σ) (jobs : List (Process σ P)) :
    Accounts jobs ((start s jobs).executions (turnsOf schedule s jobs))
      ((start s jobs).run (turnsOf schedule s jobs)) := by
  have haccounts := (accounts_start s jobs).run (turnsOf schedule s jobs)
  rwa [List.nil_append] at haccounts

/-- Gathering the groups in any order. -/
theorem gather_cases (core : String) (schedule : Schedule) (jobs : List (Process σ P)) (s : σ) :
    Accounts jobs ((start s jobs).executions (turnsOf schedule s jobs))
        ((start s jobs).run (turnsOf schedule s jobs)) ∧
      ((∃ partials, ((gather core schedule jobs).result s).1 = .ok partials ∧
          partials.length = jobs.length ∧
          (∀ i p, partials[i]? = some p ↔
            (i, .ok p) ∈ (start s jobs).executions (turnsOf schedule s jobs)) ∧
          ∀ i failure, (i, .error failure) ∉ (start s jobs).executions (turnsOf schedule s jobs)) ∨
        ∃ i failure, (i, .error failure) ∈ (start s jobs).executions (turnsOf schedule s jobs) ∧
          ((gather core schedule jobs).result s).1 = .error failure) := by
  rw [result_gather]
  refine ⟨accounts_turnsOf schedule s jobs, (accounts_turnsOf schedule s jobs).outcome_cases ?_
    (ended_of_turnsOf schedule s jobs) core⟩
  rw [length_groups_run, length_groups_start]

/-- In the end a failure is noted, or each group has its result. -/
theorem result_gather_cases (core : String) (schedule : Schedule) (jobs : List (Process σ P)) (s : σ) :
    (∃ failure, ((start s jobs).run (turnsOf schedule s jobs)).firstFailure = some failure ∧
        ((gather core schedule jobs).result s).1 = .error failure) ∨
      ((start s jobs).run (turnsOf schedule s jobs)).failed = false ∧ ∃ partials,
        List.Forall₂ (fun group p => group.result = some p)
          ((start s jobs).run (turnsOf schedule s jobs)).groups partials ∧
        ((gather core schedule jobs).result s).1 = .ok partials := by
  have haccounts := accounts_turnsOf schedule s jobs
  have hended := ended_of_turnsOf schedule s jobs
  rw [result_gather]
  rcases hfirst : ((start s jobs).run (turnsOf schedule s jobs)).firstFailure with _ | failure
  · obtain ⟨partials, hall, -⟩ := haccounts.exists_results hended hfirst
    exact .inr ⟨haccounts.failed_eq_false hended hfirst, partials, hall, outcome_eq_ok core hfirst hall⟩
  · exact .inl ⟨failure, rfl, outcome_eq_error core hfirst⟩

end Gathering

namespace Collector

variable {B L P F : Type} (c : Collector B L P F) (w : Workshop)

/-- The runs of the groups in a search that come to an end, in that order. -/
def runsOn [PatternEngines] (schedule : Schedule) (snapshot : Snapshot) (query : Query)
    (s : Workbench B) :
    List (Nat × Except Failure P) :=
  let jobs := (groupsOf w snapshot).map (c.runGroup w query)
  (Gathering.start s jobs).executions (Gathering.turnsOf schedule s jobs)

/-- A search gathers the results of the groups and merges them. -/
theorem result_searchGroups [PatternEngines] (schedule : Schedule) (core : String)
    (groups : List (List Placed)) (query : Query) (s : Workbench B) :
    (c.searchGroups w schedule core groups query).result s =
      match (Gathering.gather core schedule (groups.map (c.runGroup w query))).result s with
      | (.ok partials, t) => (c.merge t.2 partials, t)
      | (.error failure, t) => (.error failure, t) := by
  rw [searchGroups, Act.result_bind]
  rcases (Gathering.gather core schedule (groups.map (c.runGroup w query))).result s with
    ⟨_ | _, t⟩ <;> rfl

/-- **Groups in any order.** Let the groups of a search take their steps in whatever order. No group
runs twice, and what runs is the search of a group. If all runs succeed, then every group has run, and
the search merges their results in the order of the groups. If some run fails, then the search fails
with the failure of such a run. That a group is found to have no result cannot be the reason, unless a run
or the merge says so. -/
theorem searchOn_gathers [PatternEngines] (schedule : Schedule) (snapshot : Snapshot) (query : Query)
    (s : Workbench B) :
    let runs := c.runsOn w schedule snapshot query s
    let result := (c.searchOn w schedule snapshot query).result s
    (runs.map (·.1)).Nodup ∧
      (∀ i r, (i, r) ∈ runs → ∃ group, (groupsOf w snapshot)[i]? = some group ∧
        (c.runGroup w query group).LeadsTo (.done r)) ∧
      ((∀ i r, (i, r) ∈ runs → ∃ p, r = .ok p) →
        ∃ partials, partials.length = (groupsOf w snapshot).length ∧
          (∀ i p, partials[i]? = some p ↔ (i, .ok p) ∈ runs) ∧
          result.1 = c.merge result.2.2 partials) ∧
      ((∃ i failure, (i, .error failure) ∈ runs) →
        ∃ i failure, (i, .error failure) ∈ runs ∧ result.1 = .error failure) ∧
      (result.1 = .error (.segment snapshot.core .noGroupResult) →
        (∃ i, (i, .error (.segment snapshot.core .noGroupResult)) ∈ runs) ∨
          ∃ partials, (∀ i p, partials[i]? = some p ↔ (i, .ok p) ∈ runs) ∧
            c.merge result.2.2 partials = .error (.segment snapshot.core .noGroupResult)) := by
  intro runs result
  obtain ⟨haccounts, hcases⟩ := Gathering.gather_cases snapshot.core schedule
    ((groupsOf w snapshot).map (c.runGroup w query)) s
  have hresult := c.result_searchGroups w schedule snapshot.core (groupsOf w snapshot) query s
  change result = _ at hresult
  rcases hgather : (Gathering.gather snapshot.core schedule
    ((groupsOf w snapshot).map (c.runGroup w query))).result s with ⟨outcome, t⟩
  rw [hgather] at hcases hresult
  refine ⟨haccounts.once, fun i r hmem => ?_, ?_⟩
  · obtain ⟨job, hjob, hleads⟩ := haccounts.ran i r hmem
    rw [List.getElem?_map, Option.map_eq_some_iff] at hjob
    obtain ⟨group, hgroup, rfl⟩ := hjob
    exact ⟨group, hgroup, hleads⟩
  rcases hcases with ⟨partials, rfl, hlength, hruns, hno⟩ | ⟨i, failure, hmem, rfl⟩
  · rw [hresult]
    refine ⟨fun _ => ⟨partials, hlength.trans (List.length_map _), hruns, rfl⟩, ?_,
      fun hnone => .inr ⟨partials, hruns, hnone⟩⟩
    rintro ⟨i, failure, hmem⟩
    exact absurd hmem (hno i failure)
  · rw [hresult]
    refine ⟨fun hall => ?_, fun _ => ⟨i, failure, hmem, rfl⟩, fun hnone => .inl ⟨i, ?_⟩⟩
    · obtain ⟨p, hp⟩ := hall i _ hmem
      exact nomatch hp
    · rw [← Except.error.inj hnone]
      exact hmem

/-- Two segments with a document each, and between them one that cannot be read. -/
def tornShelf : Snapshot :=
  .ofSegments "shelf" [
    .indexed { core := "shelf", identity := ⟨1⟩, docs := #[{ id := "a" }] },
    .damaged { core := "shelf", identity := ⟨2⟩, size := 1, reason := "torn" },
    .indexed { core := "shelf", identity := ⟨3⟩, docs := #[{ id := "b" }] }]

/-- The second group raises the flag while the third one runs, which goes on. The first group comes too late
to run. -/
example : counting.runsOn ⟨3, fun _ => true⟩ [⟨2, false⟩, ⟨1, false⟩, ⟨1, false⟩] tornShelf .all ({}, ()) =
    [(1, .error (.segment "shelf" (.unreadable "torn"))), (2, .ok 1)] := by
  rfl

end Collector

end FederatedSearch
