import FederatedSearch.Failure

/-!
# Computations on a state

An `Act` works on a state and may fail. What it did to the state before it failed stays done.

## Main definitions

* `Act` — the computations
* `Act.ofExcept`, `Act.ofUpdate` — computations that only fail, or that are given as functions
-/

namespace FederatedSearch

/-- Computations that may fail and work on a state. -/
abbrev Act (σ : Type) := ExceptT Failure (StateM σ)

namespace Act

variable {α σ : Type}

/-- A computation as a function of the state. -/
def ofUpdate (f : σ → Except Failure α × σ) : Act σ α := fun s => f s

/-- The outcome and the state afterwards. -/
def result (a : Act σ α) (s : σ) : Except Failure α × σ := a s

/-- A computation that leaves the state alone. -/
def ofExcept (r : Except Failure α) : Act σ α := ofUpdate fun s => (r, s)

end Act

end FederatedSearch
