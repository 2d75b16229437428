import FederatedSearch.Process
import FederatedSearch.Proofs.Act.Outcome

/-!
# Processes as programs

Processes are a lawful monad: what a program does depends on its steps alone, however it was put together.
To work on a part of the state, and to take all steps alone, can be done piece by piece.

## Main results

* the monad laws
* `Process.focus_bind` — work on a part of the state
* `Process.alone_bind`, `Process.alone_foldlM` — steps that nobody interferes with
-/

namespace FederatedSearch

namespace Process

variable {α β γ ι σ τ : Type}

theorem bind_step (update : Bool → σ → σ) (next : Bool → σ → Process σ α) (f : α → Process σ β) :
    (step update next >>= f) = step update fun spurious s => next spurious s >>= f := rfl

theorem ofExcept_error_bind (failure : Failure) (f : α → Process σ β) :
    (ofExcept (.error failure) >>= f) = ofExcept (.error failure) := rfl

theorem ofExcept_ok_bind (x : α) (f : α → Process σ β) : (ofExcept (.ok x) >>= f) = f x := rfl

theorem ofExcept_bind (r : Except Failure α) (f : α → Except Failure β) :
    (ofExcept (r >>= f) : Process σ β) = ofExcept r >>= fun x => ofExcept (f x) := by
  cases r <;> rfl

theorem foldlM_ofExcept (f : α → ι → Except Failure α) (items : List ι) (x : α) :
    (items.foldlM (fun x item => ofExcept (f x item)) x : Process σ α) = ofExcept (items.foldlM f x) := by
  induction items generalizing x with
  | nil => rfl
  | cons item items ih => simp only [List.foldlM_cons, ofExcept_bind, ih]

/-- A loop that does nothing. -/
theorem foldlM_pure_self (items : List ι) (x : α) :
    (items.foldlM (fun x _ => pure x) x : Process σ α) = pure x := by
  induction items with
  | nil => rfl
  | cons item items ih => rw [List.foldlM_cons]; exact ih

private theorem bind_pure_aux (p : Process σ α) (f : α → Process σ α) (hf : ∀ x, f x = pure x) :
    p >>= f = p := by
  induction p with
  | done outcome =>
    cases outcome with
    | ok x => exact hf x
    | error failure => rfl
  | step update next ih =>
    rw [bind_step]
    exact congrArg _ (funext fun spurious => funext fun s => ih spurious s)

private theorem bind_assoc_aux (p : Process σ α) (f : α → Process σ β) (g : β → Process σ γ) :
    p >>= f >>= g = p >>= fun x => f x >>= g := by
  induction p with
  | done outcome => cases outcome <;> rfl
  | step update next ih =>
    rw [bind_step, bind_step, bind_step]
    exact congrArg _ (funext fun spurious => funext fun s => ih spurious s)

instance : LawfulMonad (Process σ) :=
  LawfulMonad.mk' _ (fun p => bind_pure_aux p _ fun _ => rfl) (fun _ _ => rfl) bind_assoc_aux

/-! ### Work on a part of the state -/

section Focus

variable (part : Part σ τ)

@[simp] theorem focus_pure (x : α) : (pure x : Process τ α).focus part = pure x := rfl

@[simp] theorem focus_ofExcept (r : Except Failure α) :
    (ofExcept r : Process τ α).focus part = ofExcept r := rfl

theorem focus_bind (p : Process τ α) (f : α → Process τ β) :
    (p >>= f).focus part = p.focus part >>= fun x => (f x).focus part := by
  induction p with
  | done outcome => cases outcome <;> rfl
  | step update next ih =>
    rw [bind_step, focus, focus, bind_step]
    exact congrArg _ (funext fun spurious => funext fun s => ih spurious _)

end Focus

/-! ### Steps that nobody interferes with -/

@[simp] theorem alone_pure (x : α) : (pure x : Process σ α).alone = pure x := rfl

@[simp] theorem alone_ofExcept (r : Except Failure α) :
    (ofExcept r : Process σ α).alone = Act.ofExcept r := rfl

theorem result_alone_step (update : Bool → σ → σ) (next : Bool → σ → Process σ α) (s : σ) :
    (step update next).alone.result s = (next false s).alone.result (update false s) := rfl

@[simp] theorem alone_update (f : σ → α × σ) :
    (Process.update f).alone = Act.ofUpdate fun s => (.ok (f s).1, (f s).2) := rfl

@[simp] theorem alone_weakUpdate (f : Bool → σ → α × σ) :
    (weakUpdate f).alone = Act.ofUpdate fun s => (.ok (f false s).1, (f false s).2) := rfl

theorem alone_bind (p : Process σ α) (f : α → Process σ β) :
    (p >>= f).alone = p.alone >>= fun x => (f x).alone := by
  induction p with
  | done outcome => cases outcome <;> rfl
  | step update next ih =>
    refine Act.ext_result fun s => ?_
    rw [bind_step, result_alone_step, ih, Act.result_bind, Act.result_bind, result_alone_step]

theorem alone_foldlM (f : α → ι → Process σ α) (items : List ι) (x : α) :
    (items.foldlM f x).alone = items.foldlM (fun x item => (f x item).alone) x := by
  induction items generalizing x with
  | nil => rfl
  | cons item items ih => simp only [List.foldlM_cons, alone_bind, ih]

theorem alone_mapM (f : ι → Process σ α) (items : List ι) :
    (items.mapM f).alone = items.mapM fun item => (f item).alone := by
  induction items with
  | nil => rfl
  | cons item items ih => simp only [List.mapM_cons, alone_bind, alone_pure, ih]

end Process

end FederatedSearch
