import FederatedSearch.Act

/-!
# Computations step by step

Groups of a search that run at the same time share a state, and between two accesses of one group to
that state the others may change it. A `Process` is a computation that says what each of its accesses
is. Each access is one step, and what it goes on with depends on the state that the step found.

An exchange may fail without a reason. Whether it does is told to each step from outside, and steps that
are no exchanges pay no attention to it.

A process that nobody interferes with is an `Act`.

## Main definitions

* `Process` — the computations; `Process.bind`
* `Process.update`, `Process.weakUpdate` — single steps
* `Process.alone` — a process that nobody interferes with
* `Part`, `Process.focus` — work on a part of the state
-/

namespace FederatedSearch

/-- Computations that may fail and share a state, step by step. -/
inductive Process (σ α : Type) where
  | done (outcome : Except Failure α)
  /-- One access. `update` is what becomes of the state, and `next` is how it goes on, by the state that
  was found. Both are told whether an exchange has to fail without a reason. -/
  | step (update : Bool → σ → σ) (next : Bool → σ → Process σ α)

namespace Process

variable {α β σ τ : Type}

def bind : Process σ α → (α → Process σ β) → Process σ β
  | done (.ok x), f => f x
  | done (.error failure), _ => done (.error failure)
  | step update next, f => step update fun spurious s => (next spurious s).bind f

instance : Monad (Process σ) where
  pure x := done (.ok x)
  bind := bind

/-- A process that leaves the state alone. -/
def ofExcept (r : Except Failure α) : Process σ α := done r

/-- A single step that cannot be made to fail. -/
def update (f : σ → α × σ) : Process σ α :=
  step (fun _ s => (f s).2) fun _ s => done (.ok (f s).1)

/-- A single step that is told whether an exchange has to fail. -/
def weakUpdate (f : Bool → σ → α × σ) : Process σ α :=
  step (fun spurious s => (f spurious s).2) fun spurious s => done (.ok (f spurious s).1)

/-- Take all steps while nobody interferes, and no exchange fails without a reason. -/
def alone : Process σ α → Act σ α
  | done outcome => Act.ofExcept outcome
  | step update next => Act.ofUpdate fun s => (next false s).alone.result (update false s)

end Process

/-! ### Parts of the state -/

/-- A part of a state. -/
structure Part (σ τ : Type) where
  get : σ → τ
  set : τ → σ → σ

namespace Part

variable {σ τ : Type}

def first : Part (σ × τ) σ := ⟨Prod.fst, fun x s => (x, s.2)⟩

def second : Part (σ × τ) τ := ⟨Prod.snd, fun y s => (s.1, y)⟩

/-- The first of several states, or `blank` if there are none. -/
def head (blank : σ) : Part (List σ) σ := ⟨fun s => s.headD blank, fun x s => x :: s.tail⟩

/-- All states but the first. -/
def tail : Part (List σ) (List σ) := ⟨List.tail, fun rest s => s.take 1 ++ rest⟩

end Part

/-- Work on a part of the state. -/
def Process.focus {σ τ α : Type} (part : Part σ τ) : Process τ α → Process σ α
  | .done outcome => .done outcome
  | .step update next =>
    .step (fun spurious s => part.set (update spurious (part.get s)) s)
      fun spurious s => (next spurious (part.get s)).focus part

end FederatedSearch
