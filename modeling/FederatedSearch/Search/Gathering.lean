import FederatedSearch.Process

/-!
# Gathering the results of groups

The groups of a search run at the same time, on a state that they share. Each looks at a common flag
first, and ends at once if the flag says that some group has failed. Otherwise it takes the steps of its
run, one after the other. When these are over it stores its partial result, or it raises the flag and
after that notes its failure unless one is noted already. When all groups have ended, the search has
failed if a failure is noted, and otherwise has a partial result of every group.

The steps of different groups may be interleaved in any way. A schedule lists whose turn it is: any list
will do, since groups that have not ended when it is over take the steps that are left to them one after
the other. So on the empty schedule the groups run in turn.

## Main definitions

* `GroupTurn`, `Schedule` — whose turn it is
* `Gathering` — the groups and the state; `Gathering.step`, `Gathering.run`, `Gathering.conclude`
* `Gathering.outcome` — the partial results, in the order of the groups, or the failure
* `Gathering.gather` — all of this for a number of groups
-/

namespace FederatedSearch

/-- A step of a group, by the number of the group. -/
structure GroupTurn where
  group : Nat
  /-- If the step is an exchange then it fails without a reason. -/
  spurious : Bool := false
deriving DecidableEq, Repr

/-- The order of the steps. -/
abbrev Schedule := List GroupTurn

/-- How far a group has come. -/
inductive GroupProgress (σ P : Type) where
  /-- The group has not looked at the flag. -/
  | waiting (job : Process σ P)
  | running (rest : Process σ P)
  /-- The flag is raised, the failure is not noted yet. -/
  | failing (failure : Failure)
  | ended

/-- A group of a search: its progress, and its partial result when there is one. -/
structure GroupState (σ P : Type) where
  progress : GroupProgress σ P
  result : Option P := none

/-- The groups of a search, and what they have in common. -/
structure Gathering (σ P : Type) where
  store : σ
  groups : List (GroupState σ P)
  /-- Whether some group has failed. -/
  failed : Bool := false
  firstFailure : Option Failure := none

namespace Gathering

variable {P σ : Type}

/-- Before the first step of groups that are to run `jobs`. -/
def start (store : σ) (jobs : List (Process σ P)) : Gathering σ P where
  store := store
  groups := jobs.map fun job => ⟨.waiting job, none⟩

/-- Change the state of a group. -/
def set (g : Gathering σ P) (i : Nat) (state : GroupState σ P) : Gathering σ P :=
  { g with groups := g.groups.set i state }

/-- A step of one of the groups, if there is such a group. -/
def step (g : Gathering σ P) (turn : GroupTurn) : Gathering σ P :=
  match g.groups[turn.group]? with
  | none => g
  | some group =>
    match group.progress with
    | .waiting job =>
      g.set turn.group { group with progress := if g.failed then .ended else .running job }
    | .running (.step update next) =>
      { g with store := update turn.spurious g.store }.set turn.group
        { group with progress := .running (next turn.spurious g.store) }
    | .running (.done (.ok p)) => g.set turn.group ⟨.ended, some p⟩
    | .running (.done (.error failure)) =>
      { g with failed := true }.set turn.group { group with progress := .failing failure }
    | .failing failure =>
      { g with firstFailure := g.firstFailure.or (some failure) }.set turn.group
        { group with progress := .ended }
    | .ended => g

/-- Steps of the groups, in order. -/
def run (g : Gathering σ P) (schedule : Schedule) : Gathering σ P := schedule.foldl step g

/-- Take group `i` through what is left of its run, and then to its end. -/
def finish (g : Gathering σ P) (i : Nat) : Process σ P → Gathering σ P
  | .done _ => (g.step ⟨i, false⟩).step ⟨i, false⟩
  | .step _ next => (g.step ⟨i, false⟩).finish i (next false g.store)

/-- Take group `i` to its end. -/
def conclude (g : Gathering σ P) (i : Nat) : Gathering σ P :=
  match g.groups[i]? with
  | none => g
  | some group =>
    match group.progress with
    | .waiting job => if g.failed then g.step ⟨i, false⟩ else (g.step ⟨i, false⟩).finish i job
    | .running rest => g.finish i rest
    | .failing _ => g.step ⟨i, false⟩
    | .ended => g

/-- The partial results in the order of the groups, or the failure noted first. -/
def outcome (core : String) (g : Gathering σ P) : Except Failure (List P) :=
  match g.firstFailure with
  | some failure => .error failure
  | none =>
    g.groups.mapM fun group =>
      match group.result with
      | some p => .ok p
      | none => .error (.segment core .noGroupResult)

/-- Run a number of jobs on a schedule, and then in turn what is left of them. -/
def gather (core : String) (schedule : Schedule) (jobs : List (Process σ P)) : Act σ (List P) :=
  Act.ofUpdate fun s =>
    let g := (List.range jobs.length).foldl conclude ((start s jobs).run schedule)
    (g.outcome core, g.store)

end Gathering

end FederatedSearch
