import FederatedSearch.Proofs.Process.Basic

/-!
# What a process ensures whatever others do

While a process takes its steps, others may change the state that it works on. What they may do is said
once, by a `Regime`, and a process that keeps to the regime itself can rely on it. `Process.Ensures` says
of a process, started in some state, that each of its steps is one that the regime allows, and what holds
when it ends: `good` of its value and the state, or `bad` of its failure.

The rules take this through sequences and loops. What is to hold at the end has to be stable, which means
that nothing the regime allows makes it false.

Some things hold of values and failures whatever a process finds in the state. For these there is no need of
a regime (`Process.EndsOnly`).

## Main definitions

* `Process.LeadsTo` — what may be left of a process after some steps
* `Process.EndsOnly` — the values and failures that a process can end with
* `Regime` — what may become of a state
* `Process.Ensures` — what holds at the end, whatever others do in between

## Main results

* `EndsOnly.bind`, `EndsOnly.foldlM`, `EndsOnly.focus`
* `Ensures.later` — others may go first
* `Ensures.bind`, `ensures_foldlM`, `Ensures.focus`
* `Ensures.ends` — a process that nobody interferes with
-/

namespace FederatedSearch

namespace Process

variable {α β ι σ τ : Type}

/-! ### Whatever is found -/

/-- After some steps the second process may be what is left of the first one, depending on what they find. -/
inductive LeadsTo : Process σ α → Process σ α → Prop
  | refl (p : Process σ α) : LeadsTo p p
  | step {update : Bool → σ → σ} {next : Bool → σ → Process σ α} {q : Process σ α} (spurious : Bool)
      (s : σ) (h : LeadsTo (next spurious s) q) : LeadsTo (.step update next) q

theorem LeadsTo.trans {p q r : Process σ α} (h : p.LeadsTo q) (h' : q.LeadsTo r) : p.LeadsTo r := by
  induction h with
  | refl p => exact h'
  | step spurious s _ ih => exact .step spurious s (ih h')

/-- Whatever the process finds in the state, it can only end with values and failures such as these. -/
def EndsOnly (good : α → Prop) (bad : Failure → Prop) : Process σ α → Prop
  | done (.ok x) => good x
  | done (.error failure) => bad failure
  | step _ next => ∀ spurious s, (next spurious s).EndsOnly good bad

section EndsOnly

variable {good : α → Prop} {bad : Failure → Prop} {p : Process σ α}

theorem endsOnly_true (p : Process σ α) : p.EndsOnly (fun _ => True) fun _ => True := by
  induction p with
  | done outcome => cases outcome <;> trivial
  | step update next ih => exact ih

theorem endsOnly_pure {x : α} (h : good x) : (pure x : Process σ α).EndsOnly good bad := h

theorem endsOnly_ofExcept {r : Except Failure α} (h : Meets good bad r) :
    (ofExcept r : Process σ α).EndsOnly good bad := by
  cases r with
  | ok x => exact h
  | error failure => exact h

theorem endsOnly_update {f : σ → α × σ} (h : ∀ s, good (f s).1) :
    (Process.update f).EndsOnly good bad := fun _ s => h s

/-- What a process can end with, when it has come to its end. -/
theorem EndsOnly.of_leadsTo (h : p.EndsOnly good bad) {r : Except Failure α} (hr : p.LeadsTo (.done r)) :
    Meets good bad r := by
  generalize hend : Process.done r = last at hr
  induction hr with
  | refl p =>
    subst hend
    cases r with
    | ok x => exact h
    | error failure => exact h
  | step spurious s _ ih => exact ih (h spurious s) hend

theorem EndsOnly.mono {good' : α → Prop} {bad' : Failure → Prop} (h : p.EndsOnly good bad)
    (hgood : ∀ x, good x → good' x) (hbad : ∀ failure, bad failure → bad' failure) :
    p.EndsOnly good' bad' := by
  induction p with
  | done outcome =>
    cases outcome with
    | ok x => exact hgood x h
    | error failure => exact hbad failure h
  | step update next ih => exact fun spurious s => ih spurious s (h spurious s)

theorem EndsOnly.bind (h : p.EndsOnly good bad) {f : α → Process σ β} {good' : β → Prop}
    (hf : ∀ x, good x → (f x).EndsOnly good' bad) : (p >>= f).EndsOnly good' bad := by
  induction p with
  | done outcome =>
    cases outcome with
    | ok x => exact hf x h
    | error failure => exact h
  | step update next ih => exact fun spurious s => ih spurious s (h spurious s)

theorem EndsOnly.foldlM {step : α → ι → Process σ α} {items : List ι}
    (h : ∀ item ∈ items, ∀ x, good x → (step x item).EndsOnly good bad) {x : α} (hx : good x) :
    (items.foldlM step x).EndsOnly good bad := by
  induction items generalizing x with
  | nil => exact endsOnly_pure hx
  | cons item items ih =>
    obtain ⟨hitem, hrest⟩ := List.forall_mem_cons.mp h
    rw [List.foldlM_cons]
    exact (hitem x hx).bind fun y hy => ih hrest hy

theorem EndsOnly.focus {p : Process τ α} (h : p.EndsOnly good bad) (part : Part σ τ) :
    (p.focus part).EndsOnly good bad := by
  induction p with
  | done outcome => cases outcome <;> exact h
  | step update next ih => exact fun spurious s => ih spurious _ (h spurious _)

end EndsOnly

end Process

/-- What may become of a state that is shared. -/
structure Regime (σ : Type) where
  may : σ → σ → Prop
  refl : ∀ s, may s s
  trans : ∀ {s t u}, may s t → may t u → may s u
  /-- Whether exchanges may fail without a reason. -/
  spurious : Prop

namespace Regime

variable {σ : Type}

/-- An invariant is kept. -/
def keeping (inv : σ → Prop) : Regime σ where
  may s t := inv s → inv t
  refl _ h := h
  trans h h' hs := h' (h hs)
  spurious := True

/-- Anything may happen. -/
def any : Regime σ := keeping fun _ => True

/-- What holds of the first of two states is kept, and the second one is subject to a regime. -/
def besides {τ : Type} (inv : τ → Prop) (R : Regime σ) : Regime (τ × σ) where
  may s t := (inv s.1 → inv t.1) ∧ R.may s.2 t.2
  refl s := ⟨id, R.refl s.2⟩
  trans h h' := ⟨fun hs => h'.1 (h.1 hs), R.trans h.2 h'.2⟩
  spurious := R.spurious

/-- Nothing that the regime allows makes it false. -/
def Stable (R : Regime σ) (p : σ → Prop) : Prop := ∀ s t, R.may s t → p s → p t

end Regime

namespace Process

variable {α β ι σ τ : Type} (R : Regime σ)

/-- Each step is one that the regime allows, and at the end `good` holds of the value and the state, or
`bad` of the failure. In between others may do what the regime allows. -/
def Ensures (good : α → σ → Prop) (bad : Failure → Prop) : Process σ α → σ → Prop
  | done (.ok x), s => good x s
  | done (.error failure), _ => bad failure
  | step update next, s => ∀ t spurious, R.may s t → (spurious = true → R.spurious) →
      R.may t (update spurious t) ∧ (next spurious t).Ensures good bad (update spurious t)

variable {R} {good : α → σ → Prop} {bad : Failure → Prop} {s : σ}

theorem ensures_pure {x : α} (h : good x s) : (pure x : Process σ α).Ensures R good bad s := h

theorem ensures_ofExcept {r : Except Failure α} (h : Meets (good · s) bad r) :
    (ofExcept r).Ensures R good bad s := by
  cases r with
  | ok x => exact h
  | error failure => exact h

theorem ensures_update {f : σ → α × σ} (h : ∀ t, R.may s t → R.may t (f t).2 ∧ good (f t).1 (f t).2) :
    (Process.update f).Ensures R good bad s := fun t _ hst _ => h t hst

theorem ensures_weakUpdate {f : Bool → σ → α × σ}
    (h : ∀ t spurious, R.may s t → (spurious = true → R.spurious) →
      R.may t (f spurious t).2 ∧ good (f spurious t).1 (f spurious t).2) :
    (weakUpdate f).Ensures R good bad s := h

/-- What holds whatever is found holds whatever others do. -/
theorem EndsOnly.ensures {good : α → Prop} {p : Process σ α} (h : p.EndsOnly good bad) (s : σ) :
    p.Ensures .any (fun x _ => good x) bad s := by
  induction p generalizing s with
  | done outcome => cases outcome <;> exact h
  | step update next ih => exact fun t spurious _ _ => ⟨id, ih spurious t (h spurious t) _⟩

/-- **Others may go first.** -/
theorem Ensures.later {p : Process σ α} (h : p.Ensures R good bad s)
    (hgood : ∀ x, R.Stable (good x)) {t : σ} (hst : R.may s t) : p.Ensures R good bad t := by
  cases p with
  | done outcome =>
    cases outcome with
    | ok x => exact hgood x s t hst h
    | error failure => exact h
  | step update next => exact fun u spurious htu => h u spurious (R.trans hst htu)

theorem Ensures.mono {p : Process σ α} {good' : α → σ → Prop} {bad' : Failure → Prop}
    (h : p.Ensures R good bad s) (hgood : ∀ x t, R.may s t → good x t → good' x t)
    (hbad : ∀ failure, bad failure → bad' failure) : p.Ensures R good' bad' s := by
  induction p generalizing s with
  | done outcome =>
    cases outcome with
    | ok x => exact hgood x s (R.refl s) h
    | error failure => exact hbad failure h
  | step update next ih =>
    intro t spurious hst hspurious
    obtain ⟨hmay, hnext⟩ := h t spurious hst hspurious
    exact ⟨hmay, ih spurious t hnext fun x u hu => hgood x u (R.trans (R.trans hst hmay) hu)⟩

theorem Ensures.bind {p : Process σ α} {f : α → Process σ β} {middle : α → σ → Prop}
    {good : β → σ → Prop} (h : p.Ensures R middle bad s)
    (hf : ∀ x t, R.may s t → middle x t → (f x).Ensures R good bad t) :
    (p >>= f).Ensures R good bad s := by
  induction p generalizing s with
  | done outcome =>
    cases outcome with
    | ok x => exact hf x s (R.refl s) h
    | error failure => exact h
  | step update next ih =>
    intro t spurious hst hspurious
    obtain ⟨hmay, hnext⟩ := h t spurious hst hspurious
    exact ⟨hmay, ih spurious t hnext fun x u hu => hf x u (R.trans (R.trans hst hmay) hu)⟩

/-- A loop, by what holds after each part of the list: `inv done x` after the items `done`. -/
theorem ensures_foldlM {step : α → ι → Process σ α} (inv : List ι → α → σ → Prop) {items : List ι}
    (hstep : ∀ done item, item ∈ items → ∀ x t, R.may s t → inv done x t →
      (step x item).Ensures R (inv (done ++ [item])) bad t)
    (done : List ι) {x : α} (h : inv done x s) :
    (items.foldlM step x).Ensures R (inv (done ++ items)) bad s := by
  induction items generalizing done x s with
  | nil => exact ensures_pure (by simpa using h)
  | cons item items ih =>
    rw [List.foldlM_cons]
    refine (hstep done item List.mem_cons_self x s (R.refl s) h).bind fun y t hst hy => ?_
    have hrest := ih (fun done other hmem x u hu =>
      hstep done other (List.mem_cons_of_mem _ hmem) x u (R.trans hst hu)) _ hy
    rwa [List.append_assoc] at hrest

/-- A loop that keeps an invariant. -/
theorem ensures_foldlM_of_inv {step : α → ι → Process σ α} (inv : α → σ → Prop) {items : List ι}
    (hstep : ∀ item ∈ items, ∀ x t, R.may s t → inv x t → (step x item).Ensures R inv bad t)
    {x : α} (h : inv x s) : (items.foldlM step x).Ensures R inv bad s :=
  ensures_foldlM (fun _ => inv) (fun _ item hmem x t hst hx => hstep item hmem x t hst hx) [] h

/-- A process for each item of a list, where each item has something to begin with, and something else is
known of the value that is made of it. -/
theorem ensures_mapM {f : ι → Process σ α} {has : β → ι → σ → Prop} {made : β → α → σ → Prop}
    (hhas : ∀ y item, R.Stable (has y item)) (hmade : ∀ y x, R.Stable (made y x)) {ys : List β}
    {items : List ι} (h : List.Forall₂ (has · · s) ys items)
    (hf : ∀ y, ∀ item ∈ items, ∀ t, R.may s t → has y item t → (f item).Ensures R (made y) bad t) :
    (items.mapM f).Ensures R (fun xs t => List.Forall₂ (made · · t) ys xs) bad s := by
  induction items generalizing ys s with
  | nil => cases h with | nil => exact ensures_pure .nil
  | cons item items ih =>
    cases h with
    | @cons y _ ys _ hfirst hrest =>
      rw [List.mapM_cons]
      refine (hf y item List.mem_cons_self s (R.refl s) hfirst).bind fun x t hst hx => ?_
      have hrest' : List.Forall₂ (has · · t) ys items := hrest.imp fun y' item' h => hhas y' item' s t hst h
      refine (ih hrest' fun y' item' hmem u htu =>
        hf y' item' (List.mem_cons_of_mem _ hmem) u (R.trans hst htu)).bind fun xs u htu hxs => ?_
      exact ensures_pure (.cons (hmade y x t u htu hx) hxs)

/-- Work on a part of the state, where a regime for the part is known. -/
theorem Ensures.focus {p : Process τ α} {R' : Regime τ} {part : Part σ τ} {good : α → τ → Prop}
    (h : p.Ensures R' good bad (part.get s)) (hget : ∀ x s, part.get (part.set x s) = x)
    (hdown : ∀ s t, R.may s t → R'.may (part.get s) (part.get t))
    (hup : ∀ s x, R'.may (part.get s) x → R.may s (part.set x s)) (hspurious : R.spurious → R'.spurious) :
    (p.focus part).Ensures R (fun x s => good x (part.get s)) bad s := by
  induction p generalizing s with
  | done outcome => cases outcome <;> exact h
  | step update next ih =>
    intro t spurious hst hallowed
    obtain ⟨hmay, hnext⟩ := h (part.get t) spurious (hdown s t hst) fun h => hspurious (hallowed h)
    refine ⟨hup t _ hmay, ih spurious (part.get t) ?_⟩
    rwa [hget]

/-- **A process that nobody interferes with.** -/
theorem Ensures.ends {p : Process σ α} (h : p.Ensures R good bad s) :
    R.may s (p.alone.result s).2 ∧ Meets (good · (p.alone.result s).2) bad (p.alone.result s).1 := by
  induction p generalizing s with
  | done outcome => cases outcome <;> exact ⟨R.refl s, h⟩
  | step update next ih =>
    obtain ⟨hmay, hnext⟩ := h s false (R.refl s) nofun
    obtain ⟨hrest, hends⟩ := ih false s hnext
    exact ⟨R.trans hmay hrest, hends⟩

end Process

end FederatedSearch
