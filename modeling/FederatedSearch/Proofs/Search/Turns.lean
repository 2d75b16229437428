import FederatedSearch.Search.Gathering
import FederatedSearch.Proofs.Process.Basic
import Mathlib.Data.List.Basic

/-!
# The turns of groups

All that a turn of a group can be is said once (`Gathering.Moves`), and what holds of whole schedules follows
turn by turn. To conclude a group is to give it a number of turns of its own, so a gathering is nothing but
turns (`Gathering.turnsOf`), after which all groups have ended.

## Main definitions

* `Gathering.Moves` — what a turn can be
* `Gathering.turnsOf` — all turns of a gathering, those after its schedule included

## Main results

* `Gathering.moves_step` — every turn is one of these
* `Gathering.result_gather` — a gathering is its turns
* `Gathering.ended_of_turnsOf` — at the end all groups have ended
-/

namespace FederatedSearch

namespace Gathering

variable {P σ : Type} {g : Gathering σ P} {turn : GroupTurn} {result : Option P}

/-! ### One turn -/

theorem step_none (hget : g.groups[turn.group]? = none) : g.step turn = g := by
  rw [step, hget]

theorem step_enter (turn : GroupTurn) {job : Process σ P}
    (hget : g.groups[turn.group]? = some ⟨.waiting job, result⟩)
    (hfailed : g.failed = false) : g.step turn = g.set turn.group ⟨.running job, result⟩ := by
  simp [step, hget, hfailed]

theorem step_skip {job : Process σ P} (hget : g.groups[turn.group]? = some ⟨.waiting job, result⟩)
    (hfailed : g.failed = true) : g.step turn = g.set turn.group ⟨.ended, result⟩ := by
  simp [step, hget, hfailed]

theorem step_access (turn : GroupTurn) {update : Bool → σ → σ} {next : Bool → σ → Process σ P}
    (hget : g.groups[turn.group]? = some ⟨.running (.step update next), result⟩) :
    g.step turn = { g with store := update turn.spurious g.store }.set turn.group
      ⟨.running (next turn.spurious g.store), result⟩ := by
  rw [step, hget]

theorem step_publish (turn : GroupTurn) {p : P}
    (hget : g.groups[turn.group]? = some ⟨.running (.done (.ok p)), result⟩) :
    g.step turn = g.set turn.group ⟨.ended, some p⟩ := by
  rw [step, hget]

theorem step_raise (turn : GroupTurn) {failure : Failure}
    (hget : g.groups[turn.group]? = some ⟨.running (.done (.error failure)), result⟩) :
    g.step turn = { g with failed := true }.set turn.group ⟨.failing failure, result⟩ := by
  rw [step, hget]

theorem step_note {failure : Failure}
    (hget : g.groups[turn.group]? = some ⟨.failing failure, result⟩) :
    g.step turn = { g with firstFailure := g.firstFailure.or (some failure) }.set turn.group
      ⟨.ended, result⟩ := by
  rw [step, hget]

theorem step_ended (hget : g.groups[turn.group]? = some ⟨.ended, result⟩) : g.step turn = g := by
  rw [step, hget]

/-- **What a turn can be.** -/
inductive Moves (g : Gathering σ P) (turn : GroupTurn) : Gathering σ P → Prop
  | unknown (hget : g.groups[turn.group]? = none) : Moves g turn g
  | enter {job : Process σ P} {result : Option P}
      (hget : g.groups[turn.group]? = some ⟨.waiting job, result⟩) (hfailed : g.failed = false) :
      Moves g turn (g.set turn.group ⟨.running job, result⟩)
  | skip {job : Process σ P} {result : Option P}
      (hget : g.groups[turn.group]? = some ⟨.waiting job, result⟩) (hfailed : g.failed = true) :
      Moves g turn (g.set turn.group ⟨.ended, result⟩)
  | access {update : Bool → σ → σ} {next : Bool → σ → Process σ P} {result : Option P}
      (hget : g.groups[turn.group]? = some ⟨.running (.step update next), result⟩) :
      Moves g turn ({ g with store := update turn.spurious g.store }.set turn.group
        ⟨.running (next turn.spurious g.store), result⟩)
  | publish {p : P} {result : Option P}
      (hget : g.groups[turn.group]? = some ⟨.running (.done (.ok p)), result⟩) :
      Moves g turn (g.set turn.group ⟨.ended, some p⟩)
  | raise {failure : Failure} {result : Option P}
      (hget : g.groups[turn.group]? = some ⟨.running (.done (.error failure)), result⟩) :
      Moves g turn ({ g with failed := true }.set turn.group ⟨.failing failure, result⟩)
  | note {failure : Failure} {result : Option P}
      (hget : g.groups[turn.group]? = some ⟨.failing failure, result⟩) :
      Moves g turn ({ g with firstFailure := g.firstFailure.or (some failure) }.set turn.group
        ⟨.ended, result⟩)
  | ended {result : Option P} (hget : g.groups[turn.group]? = some ⟨.ended, result⟩) : Moves g turn g

theorem moves_step (g : Gathering σ P) (turn : GroupTurn) : Moves g turn (g.step turn) := by
  rcases hget : g.groups[turn.group]? with _ | ⟨progress, result⟩
  · exact (step_none hget).symm ▸ .unknown hget
  cases progress with
  | waiting job =>
    cases hfailed : g.failed with
    | false => exact (step_enter _ hget hfailed).symm ▸ .enter hget hfailed
    | true => exact (step_skip hget hfailed).symm ▸ .skip hget hfailed
  | running rest =>
    cases rest with
    | step update next => exact (step_access _ hget).symm ▸ .access hget
    | done outcome =>
      cases outcome with
      | ok p => exact (step_publish _ hget).symm ▸ .publish hget
      | error failure => exact (step_raise _ hget).symm ▸ .raise hget
  | failing failure => exact (step_note hget).symm ▸ .note hget
  | ended => exact (step_ended hget).symm ▸ .ended hget

/-! ### What a turn leaves alone -/

theorem getElem?_set_self {i : Nat} {group : GroupState σ P} (hget : g.groups[i]? = some group)
    (state : GroupState σ P) : (g.set i state).groups[i]? = some state := by
  obtain ⟨hi, -⟩ := List.getElem?_eq_some_iff.mp hget
  simp [set, hi]

theorem getElem?_set_of_ne (g : Gathering σ P) {i j : Nat} (hne : j ≠ i) (state : GroupState σ P) :
    (g.set i state).groups[j]? = g.groups[j]? := by
  simp [set, Ne.symm hne]

@[simp] theorem length_groups_set (g : Gathering σ P) (i : Nat) (state : GroupState σ P) :
    (g.set i state).groups.length = g.groups.length := by
  simp [set]

@[simp] theorem failed_set (g : Gathering σ P) (i : Nat) (state : GroupState σ P) :
    (g.set i state).failed = g.failed := rfl

@[simp] theorem firstFailure_set (g : Gathering σ P) (i : Nat) (state : GroupState σ P) :
    (g.set i state).firstFailure = g.firstFailure := rfl

@[simp] theorem store_set (g : Gathering σ P) (i : Nat) (state : GroupState σ P) :
    (g.set i state).store = g.store := rfl

theorem Moves.length_groups {g' : Gathering σ P} (h : Moves g turn g') :
    g'.groups.length = g.groups.length := by
  cases h <;> simp

/-- The turn of another group. -/
theorem Moves.getElem?_of_ne {g' : Gathering σ P} (h : Moves g turn g') {j : Nat}
    (hne : j ≠ turn.group) : g'.groups[j]? = g.groups[j]? := by
  cases h with
  | unknown | ended => rfl
  | enter | skip | publish => exact getElem?_set_of_ne g hne _
  | access => exact getElem?_set_of_ne { g with store := _ } hne _
  | raise => exact getElem?_set_of_ne { g with failed := _ } hne _
  | note => exact getElem?_set_of_ne { g with firstFailure := _ } hne _

/-- A group that has ended stays as it is. -/
theorem getElem?_step_of_ended {j : Nat} (hget : g.groups[j]? = some ⟨.ended, result⟩)
    (turn : GroupTurn) : (g.step turn).groups[j]? = some ⟨.ended, result⟩ := by
  by_cases hj : j = turn.group
  · rw [step_ended (hj ▸ hget), hget]
  · rw [(moves_step g turn).getElem?_of_ne hj, hget]

/-! ### Many turns -/

theorem run_cons (turn : GroupTurn) (turns : Schedule) : g.run (turn :: turns) =
    (g.step turn).run turns := rfl

theorem run_append (turns more : Schedule) : g.run (turns ++ more) = (g.run turns).run more :=
  List.foldl_append

theorem length_groups_run (turns : Schedule) : (g.run turns).groups.length = g.groups.length := by
  induction turns generalizing g with
  | nil => rfl
  | cons turn turns ih => rw [run_cons, ih, (moves_step g turn).length_groups]

theorem getElem?_run_of_ended {j : Nat} (hget : g.groups[j]? = some ⟨.ended, result⟩)
    (turns : Schedule) : (g.run turns).groups[j]? = some ⟨.ended, result⟩ := by
  induction turns generalizing g with
  | nil => exact hget
  | cons turn turns ih => exact ih (getElem?_step_of_ended hget turn)

/-- A failure that is noted stays. -/
theorem firstFailure_step {failure : Failure} (hfirst : g.firstFailure = some failure)
    (turn : GroupTurn) : (g.step turn).firstFailure = some failure := by
  have hmoves := moves_step g turn
  generalize g.step turn = g' at hmoves
  cases hmoves with
  | note => simp [hfirst]
  | _ => exact hfirst

theorem firstFailure_run {failure : Failure} (hfirst : g.firstFailure = some failure)
    (turns : Schedule) : (g.run turns).firstFailure = some failure := by
  induction turns generalizing g with
  | nil => exact hfirst
  | cons turn turns ih => exact ih (firstFailure_step hfirst turn)

/-! ### To the end -/

/-- The turns that a group takes for what is left of its run. -/
def turnsLeft (g : Gathering σ P) (i : Nat) : Process σ P → Schedule
  | .done _ => [⟨i, false⟩, ⟨i, false⟩]
  | .step _ next => ⟨i, false⟩ :: (g.step ⟨i, false⟩).turnsLeft i (next false g.store)

/-- The turns that take a group to its end. -/
def turnsToEnd (g : Gathering σ P) (i : Nat) : Schedule :=
  match g.groups[i]? with
  | none => []
  | some group =>
    match group.progress with
    | .waiting job =>
      if g.failed then [⟨i, false⟩] else ⟨i, false⟩ :: (g.step ⟨i, false⟩).turnsLeft i job
    | .running rest => g.turnsLeft i rest
    | .failing _ => [⟨i, false⟩]
    | .ended => []

theorem finish_eq_run (i : Nat) (p : Process σ P) : g.finish i p = g.run (g.turnsLeft i p) := by
  induction p generalizing g with
  | done outcome => rfl
  | step update next ih =>
    rw [finish, turnsLeft, run_cons]
    exact ih false g.store

theorem conclude_eq_run (i : Nat) : g.conclude i = g.run (g.turnsToEnd i) := by
  rw [conclude, turnsToEnd]
  rcases g.groups[i]? with _ | ⟨progress, result⟩
  · rfl
  cases progress with
  | waiting job =>
    cases hfailed : g.failed with
    | false => exact finish_eq_run i job
    | true => rfl
  | running rest => exact finish_eq_run i rest
  | failing failure => rfl
  | ended => rfl

theorem ended_finish {i : Nat} {p : Process σ P}
    (hget : g.groups[i]? = some ⟨.running p, result⟩) :
    ∃ result', (g.finish i p).groups[i]? = some ⟨.ended, result'⟩ := by
  induction p generalizing g with
  | done outcome =>
    rw [finish]
    cases outcome with
    | ok p =>
      refine ⟨some p, getElem?_step_of_ended ?_ _⟩
      rw [step_publish _ hget]
      exact getElem?_set_self hget _
    | error failure =>
      have hraised : (g.step ⟨i, false⟩).groups[i]? = some ⟨.failing failure, result⟩ := by
        rw [step_raise _ hget]
        exact getElem?_set_self (g := { g with failed := true }) hget _
      refine ⟨result, ?_⟩
      rw [step_note hraised]
      exact getElem?_set_self (g := { g.step ⟨i, false⟩ with firstFailure := _ }) hraised _
  | step update next ih =>
    refine ih false g.store ?_
    rw [step_access _ hget]
    exact getElem?_set_self (g := { g with store := _ }) hget _

/-- **A group that is concluded** has ended. -/
theorem ended_conclude {i : Nat} {group : GroupState σ P} (hget : g.groups[i]? = some group) :
    ∃ result', (g.conclude i).groups[i]? = some ⟨.ended, result'⟩ := by
  obtain ⟨progress, result⟩ := group
  rw [conclude, hget]
  cases progress with
  | waiting job =>
    cases hfailed : g.failed with
    | false =>
      have hrunning : (g.step ⟨i, false⟩).groups[i]? = some ⟨.running job, result⟩ := by
        rw [step_enter _ hget hfailed]
        exact getElem?_set_self hget _
      exact ended_finish hrunning
    | true =>
      refine ⟨result, ?_⟩
      show (g.step ⟨i, false⟩).groups[i]? = _
      rw [step_skip hget hfailed]
      exact getElem?_set_self hget _
  | running rest => exact ended_finish hget
  | failing failure =>
    refine ⟨result, ?_⟩
    show (g.step ⟨i, false⟩).groups[i]? = _
    rw [step_note hget]
    exact getElem?_set_self (g := { g with firstFailure := _ }) hget _
  | ended => exact ⟨result, hget⟩

/-- The turns that take some groups to their ends, one after the other. -/
def turnsToEnds (g : Gathering σ P) : List Nat → Schedule
  | [] => []
  | i :: rest => g.turnsToEnd i ++ (g.conclude i).turnsToEnds rest

theorem foldl_conclude_eq_run (items : List Nat) :
    items.foldl conclude g = g.run (g.turnsToEnds items) := by
  induction items generalizing g with
  | nil => rfl
  | cons i items ih => rw [List.foldl_cons, ih, turnsToEnds, run_append, ← conclude_eq_run]

/-- All turns of a gathering: those of its schedule, and those that the groups take after that. -/
def turnsOf (schedule : Schedule) (s : σ) (jobs : List (Process σ P)) : Schedule :=
  schedule ++ ((start s jobs).run schedule).turnsToEnds (List.range jobs.length)

/-- **A gathering** is its turns. -/
theorem result_gather (core : String) (schedule : Schedule) (jobs : List (Process σ P)) (s : σ) :
    (gather core schedule jobs).result s =
      (((start s jobs).run (turnsOf schedule s jobs)).outcome core,
        ((start s jobs).run (turnsOf schedule s jobs)).store) := by
  rw [turnsOf, run_append, ← foldl_conclude_eq_run]
  rfl

/-- A gathering whose groups have all ended when the schedule is over. -/
theorem result_gather_of_ended (core : String) {schedule : Schedule} {jobs : List (Process σ P)} {s : σ}
    (hended : ∀ group ∈ ((start s jobs).run schedule).groups, group.progress = .ended) :
    (gather core schedule jobs).result s =
      (((start s jobs).run schedule).outcome core, ((start s jobs).run schedule).store) := by
  have hloop : ∀ items : List Nat,
      items.foldl conclude ((start s jobs).run schedule) = (start s jobs).run schedule := by
    intro items
    induction items with
    | nil => rfl
    | cons i items ih =>
      have hone : ((start s jobs).run schedule).conclude i = (start s jobs).run schedule := by
        rcases hget : ((start s jobs).run schedule).groups[i]? with _ | ⟨progress, result⟩
        · rw [conclude, hget]
        · obtain rfl : progress = .ended := hended _ (List.mem_of_getElem? hget)
          rw [conclude, hget]
      rw [List.foldl_cons, hone, ih]
  rw [← hloop (List.range jobs.length)]
  rfl

theorem spurious_turnsLeft (g : Gathering σ P) (i : Nat) (p : Process σ P) :
    ∀ turn ∈ g.turnsLeft i p, turn.spurious = false := by
  induction p generalizing g with
  | done outcome => simp [turnsLeft]
  | step update next ih => exact List.forall_mem_cons.mpr ⟨rfl, ih false g.store _⟩

theorem spurious_turnsToEnd (g : Gathering σ P) (i : Nat) :
    ∀ turn ∈ g.turnsToEnd i, turn.spurious = false := by
  rw [turnsToEnd]
  rcases g.groups[i]? with _ | ⟨progress, result⟩
  · exact fun _ h => absurd h List.not_mem_nil
  cases progress with
  | waiting job =>
    show ∀ turn ∈ (if g.failed then _ else _), _
    split
    · exact List.forall_mem_singleton.mpr rfl
    · exact List.forall_mem_cons.mpr ⟨rfl, spurious_turnsLeft _ i job⟩
  | running rest => exact spurious_turnsLeft g i rest
  | failing failure => exact List.forall_mem_singleton.mpr rfl
  | ended => exact fun _ h => absurd h List.not_mem_nil

/-- After the schedule no exchange fails without a reason. -/
theorem mem_of_mem_turnsOf {schedule : Schedule} {s : σ} {jobs : List (Process σ P)} {turn : GroupTurn}
    (hmem : turn ∈ turnsOf schedule s jobs) (hspurious : turn.spurious = true) : turn ∈ schedule := by
  have hends : ∀ (items : List Nat) (g : Gathering σ P), ∀ turn ∈ g.turnsToEnds items,
      turn.spurious = false := by
    intro items
    induction items with
    | nil => exact fun _ _ h => absurd h List.not_mem_nil
    | cons i items ih =>
      exact fun g => List.forall_mem_append.mpr ⟨spurious_turnsToEnd g i, ih _⟩
  rcases List.mem_append.mp hmem with hmem | hmem
  · exact hmem
  · exact absurd (hspurious.symm.trans (hends _ _ turn hmem)) nofun

theorem length_groups_start (s : σ) (jobs : List (Process σ P)) :
    (start s jobs).groups.length = jobs.length := List.length_map _

/-- **At the end** all groups have ended. -/
theorem ended_of_turnsOf (schedule : Schedule) (s : σ) (jobs : List (Process σ P)) :
    ∀ group ∈ ((start s jobs).run (turnsOf schedule s jobs)).groups, group.progress = .ended := by
  have hends : ∀ (items : List Nat) (g : Gathering σ P), ∀ i ∈ items, i < g.groups.length →
      ∃ result, (items.foldl conclude g).groups[i]? = some ⟨.ended, result⟩ := by
    intro items
    induction items with
    | nil => exact fun _ i hi => absurd hi List.not_mem_nil
    | cons j items ih =>
      intro g i hi hlt
      rw [List.foldl_cons]
      rcases List.mem_cons.mp hi with rfl | hi
      · obtain ⟨result, hended⟩ := ended_conclude (List.getElem?_eq_getElem hlt)
        rw [foldl_conclude_eq_run]
        exact ⟨result, getElem?_run_of_ended hended _⟩
      · refine ih (g.conclude j) i hi ?_
        rwa [conclude_eq_run, length_groups_run]
  rw [turnsOf, run_append, ← foldl_conclude_eq_run]
  intro group hmem
  obtain ⟨i, hi, hget⟩ := List.mem_iff_getElem.mp hmem
  have hlength : i < ((start s jobs).run schedule).groups.length := by
    rwa [foldl_conclude_eq_run, length_groups_run] at hi
  have hjobs : i < jobs.length := by rwa [length_groups_run, length_groups_start] at hlength
  obtain ⟨result, hended⟩ := hends _ _ i (List.mem_range.mpr hjobs) hlength
  rw [List.getElem?_eq_getElem hi, hget] at hended
  rw [Option.some.inj hended]

end Gathering

end FederatedSearch
