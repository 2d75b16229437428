import FederatedSearch.Proofs.Process.Ensures

/-!
# What a computation can fail with

A computation fails with what one of its parts fails with. Which failures that can be does not
depend on the state that it works on, so it is said for all states at once, and work on a part of
the state fails with what it fails with on that part alone. Nor does it depend on what others do to the
state between two steps of a process.

## Main definitions

* `FailsOnly` — all failures of an outcome have a property
* `Act.FailsOnly` — so do all failures of a computation, from any state
* `Process.FailsOnly` — so do all failures of a process, whatever it finds

## Main results

* `FailsOnly.bind`, `FailsOnly.mapM`
* `Act.FailsOnly.bind`, `Act.FailsOnly.mapM`, `Act.FailsOnly.foldlM`
* `Process.FailsOnly.bind`, `Process.FailsOnly.foldlM`, `Process.FailsOnly.focus`
-/

namespace FederatedSearch

variable {α β ι : Type} {p : Failure → Prop}

/-! ### Outcomes without a state -/

/-- If the outcome is a failure, it has the property. -/
def FailsOnly (p : Failure → Prop) (r : Except Failure α) : Prop :=
  ∀ failure, r = .error failure → p failure

section Except

theorem failsOnly_ok (x : α) : FailsOnly p (.ok x : Except Failure α) :=
  fun _ h => absurd h ok_ne_error

theorem failsOnly_error {failure : Failure} (h : p failure) :
    FailsOnly p (.error failure : Except Failure α) := by
  rintro _ ⟨⟩
  exact h

variable {r : Except Failure α}

theorem FailsOnly.bind (h : FailsOnly p r) {f : α → Except Failure β}
    (hf : ∀ x, FailsOnly p (f x)) : FailsOnly p (r >>= f) := by
  cases r with
  | ok x => exact hf x
  | error failure => exact failsOnly_error (h failure rfl)

/-- What cannot fail succeeds. -/
theorem FailsOnly.exists_eq_ok (h : FailsOnly (fun _ => False) r) : ∃ x, r = .ok x := by
  cases r with
  | ok x => exact ⟨x, rfl⟩
  | error failure => exact (h failure rfl).elim

theorem FailsOnly.map (h : FailsOnly p r) (f : α → β) : FailsOnly p (r.map f) := by
  cases r with
  | ok x => exact failsOnly_ok (f x)
  | error failure => exact failsOnly_error (h failure rfl)

theorem FailsOnly.mapM {f : ι → Except Failure α} {items : List ι}
    (h : ∀ item ∈ items, FailsOnly p (f item)) : FailsOnly p (items.mapM f) := by
  induction items with
  | nil => exact failsOnly_ok []
  | cons item items ih =>
    obtain ⟨hitem, hrest⟩ := List.forall_mem_cons.mp h
    rw [List.mapM_cons]
    exact hitem.bind fun _ => (ih hrest).bind fun _ => failsOnly_ok _

end Except

/-! ### Computations -/

namespace Act

variable {σ τ : Type}

/-- Whatever state the computation starts from, if it fails then the failure has the property. -/
def FailsOnly (p : Failure → Prop) (a : Act σ α) : Prop :=
  ∀ s, FederatedSearch.FailsOnly p (a.result s).1

theorem failsOnly_pure (x : α) : (pure x : Act σ α).FailsOnly p := fun _ => failsOnly_ok x

theorem failsOnly_ofExcept {r : Except Failure α} (h : FederatedSearch.FailsOnly p r) :
    (ofExcept r : Act σ α).FailsOnly p := fun _ => h

variable {a : Act σ α} (h : a.FailsOnly p)
include h

theorem FailsOnly.bind {f : α → Act σ β} (hf : ∀ x, (f x).FailsOnly p) : (a >>= f).FailsOnly p := by
  intro s
  have ha := h s
  rw [result_bind]
  rcases hr : a.result s with ⟨failure | x, t⟩
  · rw [hr] at ha
    exact failsOnly_error (ha failure rfl)
  · exact hf x t

omit h in
theorem FailsOnly.foldlM {step : α → ι → Act σ α} {items : List ι}
    (h : ∀ item ∈ items, ∀ x, (step x item).FailsOnly p) (x : α) :
    (items.foldlM step x).FailsOnly p := by
  induction items generalizing x with
  | nil => exact failsOnly_pure x
  | cons item items ih =>
    obtain ⟨hitem, hrest⟩ := List.forall_mem_cons.mp h
    rw [List.foldlM_cons]
    exact (hitem x).bind (ih hrest)

omit h in
theorem FailsOnly.mapM {f : ι → Act σ α} {items : List ι}
    (h : ∀ item ∈ items, (f item).FailsOnly p) : (items.mapM f).FailsOnly p := by
  induction items with
  | nil => exact failsOnly_pure []
  | cons item items ih =>
    obtain ⟨hitem, hrest⟩ := List.forall_mem_cons.mp h
    rw [List.mapM_cons]
    exact hitem.bind fun _ => (ih hrest).bind fun _ => failsOnly_pure _

end Act

/-! ### Processes -/

namespace Process

variable {σ τ : Type}

/-- Whatever the process finds, if it fails then the failure has the property. -/
def FailsOnly (p : Failure → Prop) (q : Process σ α) : Prop := q.EndsOnly (fun _ => True) p

theorem failsOnly_pure (x : α) : (pure x : Process σ α).FailsOnly p := trivial

theorem failsOnly_ofExcept {r : Except Failure α} (h : FederatedSearch.FailsOnly p r) :
    (ofExcept r : Process σ α).FailsOnly p :=
  endsOnly_ofExcept (meets_iff.mpr ⟨fun _ _ => trivial, h⟩)

theorem failsOnly_update (f : σ → α × σ) :
    (Process.update f).FailsOnly p := endsOnly_update fun _ => trivial

theorem failsOnly_weakUpdate (f : Bool → σ → α × σ) : (weakUpdate f).FailsOnly p := fun _ _ => trivial

variable {q : Process σ α} (h : q.FailsOnly p)
include h

theorem FailsOnly.bind {f : α → Process σ β} (hf : ∀ x, (f x).FailsOnly p) : (q >>= f).FailsOnly p :=
  EndsOnly.bind h fun x _ => hf x

theorem FailsOnly.focus (part : Part τ σ) : (q.focus part).FailsOnly p := EndsOnly.focus h part

omit h in
theorem FailsOnly.foldlM {step : α → ι → Process σ α} {items : List ι}
    (h : ∀ item ∈ items, ∀ x, (step x item).FailsOnly p) (x : α) :
    (items.foldlM step x).FailsOnly p :=
  EndsOnly.foldlM (fun item hmem x _ => h item hmem x) trivial

end Process

end FederatedSearch
