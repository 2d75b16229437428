import FederatedSearch.Act
import Mathlib.Data.List.Forall2

/-!
# What becomes of a computation

An `Act` leaves an outcome and a state, and it leaves the state also when it fails. So there are two
things to say about one: what holds after a success, of the value and the state, and what holds of
the state after a failure. `Act.Ends` says both, and the rules below take it through sequences and
loops. Proofs about searches use these rules and do not look into the monad.

## Main definitions

* `Act.Needs` — what a success needs
* `Act.Ends` — what holds after a success, and after a failure

## Main results

* `Ends.bind`, `ends_foldlM`, `ends_mapM`
-/

namespace FederatedSearch

theorem mapM_congr {m : Type → Type} [Monad m] [LawfulMonad m] {α ι : Type} {f g : ι → m α}
    {items : List ι} (h : ∀ item ∈ items, f item = g item) : items.mapM f = items.mapM g := by
  induction items with
  | nil => rfl
  | cons item items ih =>
    obtain ⟨hitem, hrest⟩ := List.forall_mem_cons.mp h
    rw [List.mapM_cons, List.mapM_cons, hitem, ih hrest]

/-! ### Lists side by side -/

section Forall₂

variable {α β : Type} {rel : α → β → Prop} {xs : List α} {ys : List β}

theorem exists_of_forall₂ (h : List.Forall₂ rel xs ys) {x : α} (hx : x ∈ xs) : ∃ y ∈ ys, rel x y := by
  induction h with
  | nil => exact absurd hx List.not_mem_nil
  | @cons x' y xs ys hrel _ ih =>
    rcases List.mem_cons.mp hx with rfl | hx
    · exact ⟨y, List.mem_cons_self, hrel⟩
    · obtain ⟨y', hmem, hrel'⟩ := ih hx
      exact ⟨y', List.mem_cons_of_mem _ hmem, hrel'⟩

theorem exists_forall₂ (h : ∀ x ∈ xs, ∃ y, rel x y) : ∃ ys, List.Forall₂ rel xs ys := by
  induction xs with
  | nil => exact ⟨[], .nil⟩
  | cons x xs ih =>
    obtain ⟨hx, hrest⟩ := List.forall_mem_cons.mp h
    obtain ⟨y, hy⟩ := hx
    obtain ⟨ys, hys⟩ := ih hrest
    exact ⟨y :: ys, .cons hy hys⟩

theorem exists_getElem?_of_forall₂ (h : List.Forall₂ rel xs ys) {i : Nat} {y : β}
    (hy : ys[i]? = some y) : ∃ x, xs[i]? = some x ∧ rel x y := by
  induction h generalizing i with
  | nil => exact nomatch hy
  | cons hrel _ ih =>
    cases i with
    | zero => exact ⟨_, rfl, Option.some.inj hy ▸ hrel⟩
    | succ i => exact ih hy

theorem map_eq_of_forall₂ {f : α → β} (h : List.Forall₂ (fun x y => f x = y) xs ys) : xs.map f = ys := by
  rw [← List.forall₂_eq_eq_eq]
  exact List.forall₂_map_left_iff.mpr h

/-- Values that are made of others. -/
theorem exists_map_of_forall₂ {γ : Type} {f : β → γ} {zs : List γ}
    (h : List.Forall₂ (fun x z => ∃ y, rel x y ∧ z = f y) xs zs) :
    ∃ ys, List.Forall₂ rel xs ys ∧ zs = ys.map f := by
  induction h with
  | nil => exact ⟨[], .nil, rfl⟩
  | cons hfirst _ ih =>
    obtain ⟨y, hy, rfl⟩ := hfirst
    obtain ⟨ys, hys, rfl⟩ := ih
    exact ⟨y :: ys, .cons hy hys, rfl⟩

end Forall₂

/-! ### Outcomes without a state -/

section Except

variable {α β : Type} {r : Except Failure α}

theorem error_ne_ok {failure : Failure} {x : α} : (.error failure : Except Failure α) ≠ .ok x := by
  intro h
  cases h

theorem ok_ne_error {failure : Failure} {x : α} : (.ok x : Except Failure α) ≠ .error failure :=
  error_ne_ok.symm

theorem exists_eq_ok (h : r.isOk = true) : ∃ x, r = .ok x := by
  cases r with
  | ok x => exact ⟨x, rfl⟩
  | error => exact absurd h Bool.false_ne_true

@[simp] theorem ok_bind (x : α) (f : α → Except Failure β) : (Except.ok x >>= f) = f x := rfl

@[simp] theorem error_bind (failure : Failure) (f : α → Except Failure β) :
    (Except.error failure >>= f) = .error failure := rfl

theorem bind_eq_ok {f : α → Except Failure β} {y : β} :
    (r >>= f) = .ok y ↔ ∃ x, r = .ok x ∧ f x = .ok y := by
  cases r <;> simp

theorem map_eq_ok {f : α → β} {y : β} : r.map f = .ok y ↔ ∃ x, r = .ok x ∧ f x = y := by
  cases r <;> simp [Except.map]

/-- A list of outcomes is a success just if all of them are. -/
theorem mapM_eq_ok {f : α → Except Failure β} {xs : List α} {ys : List β} :
    xs.mapM f = .ok ys ↔ List.Forall₂ (fun x y => f x = .ok y) xs ys := by
  induction xs generalizing ys with
  | nil => cases ys <;> simp [pure, Except.pure]
  | cons x xs ih =>
    rw [List.mapM_cons, bind_eq_ok]
    simp only [bind_eq_ok, ih]
    cases ys with
    | nil => simp [pure, Except.pure]
    | cons y ys =>
      simp only [pure, Except.pure, Except.ok.injEq, List.cons.injEq, List.forall₂_cons]
      constructor
      · rintro ⟨_, hx, _, hxs, rfl, rfl⟩
        exact ⟨hx, hxs⟩
      · rintro ⟨hx, hxs⟩
        exact ⟨y, hx, ys, hxs, rfl, rfl⟩

theorem mem_of_mapM_eq_ok {f : α → Except Failure β} {xs : List α} {ys : List β}
    (h : xs.mapM f = .ok ys) {y : β} (hy : y ∈ ys) : ∃ x ∈ xs, f x = .ok y := by
  have hall := mapM_eq_ok.mp h
  induction hall with
  | nil => exact absurd hy List.not_mem_nil
  | cons hx hrest ih =>
    rcases List.mem_cons.mp hy with rfl | hy
    · exact ⟨_, List.mem_cons_self, hx⟩
    · obtain ⟨x, hmem, hfx⟩ := ih (mapM_eq_ok.mpr hrest) hy
      exact ⟨x, List.mem_cons_of_mem _ hmem, hfx⟩

/-- If this is a success then `good` holds of its value, and if it is a failure then `bad` holds of it. -/
def Meets (good : α → Prop) (bad : Failure → Prop) : Except Failure α → Prop
  | .ok x => good x
  | .error failure => bad failure

section Meets

variable {good : α → Prop} {bad : Failure → Prop}

theorem meets_iff : Meets good bad r ↔
    (∀ x, r = .ok x → good x) ∧ ∀ failure, r = .error failure → bad failure := by
  cases r with
  | ok x => exact ⟨fun h => ⟨fun _ hx => Except.ok.inj hx ▸ h, nofun⟩, fun h => h.1 x rfl⟩
  | error failure => exact ⟨fun h => ⟨nofun, fun _ hx => Except.error.inj hx ▸ h⟩, fun h => h.2 failure rfl⟩

theorem Meets.of_ok (h : Meets good bad r) {x : α} (hr : r = .ok x) : good x := (meets_iff.mp h).1 x hr

theorem Meets.of_error (h : Meets good bad r) {failure : Failure} (hr : r = .error failure) :
    bad failure := (meets_iff.mp h).2 failure hr

theorem Meets.exists_ok (h : Meets good (fun _ => False) r) : ∃ x, r = .ok x ∧ good x := by
  cases r with
  | ok x => exact ⟨x, rfl, h⟩
  | error failure => exact h.elim

theorem Meets.mono {good' : α → Prop} {bad' : Failure → Prop} (h : Meets good bad r)
    (hgood : ∀ x, good x → good' x) (hbad : ∀ failure, bad failure → bad' failure) :
    Meets good' bad' r := by
  cases r with
  | ok x => exact hgood x h
  | error failure => exact hbad failure h

theorem Meets.bind {middle : α → Prop} {good : β → Prop} (h : Meets middle bad r)
    {f : α → Except Failure β} (hf : ∀ x, middle x → Meets good bad (f x)) : Meets good bad
    (r >>= f) := by
  cases r with
  | ok x => exact hf x h
  | error failure => exact h

/-- What is good and excludes all that is bad is just what this can succeed with. -/
theorem Meets.eq_ok_iff (h : Meets good bad r) (hunique : ∀ x y, good x → good y → x = y)
    (hexcludes : ∀ x, good x → ∀ failure, ¬ bad failure) {x : α} : r = .ok x ↔ good x := by
  cases r with
  | ok y => exact ⟨fun hx => Except.ok.inj hx ▸ h, fun hx => congrArg Except.ok (hunique y x h hx)⟩
  | error failure => exact ⟨fun hx => absurd hx error_ne_ok, fun hx => absurd h (hexcludes x hx failure)⟩

end Meets

/-- Both computations fail, or both succeed and `rel` relates their values. -/
inductive Agrees (rel : α → β → Prop) : Except Failure α → Except Failure β → Prop
  | ok {x : α} {y : β} (h : rel x y) : Agrees rel (.ok x) (.ok y)
  | error (failure failure' : Failure) : Agrees rel (.error failure) (.error failure')

theorem Agrees.mono {rel weaker : α → β → Prop} {r : Except Failure α} {r' : Except Failure β}
    (h : Agrees rel r r') (hrel : ∀ x y, rel x y → weaker x y) : Agrees weaker r r' := by
  cases h with
  | ok h => exact .ok (hrel _ _ h)
  | error failure failure' => exact .error failure failure'

end Except

namespace Act

variable {α β ι σ τ : Type}

/-! ### Outcomes of the parts -/

@[simp] theorem result_pure (x : α) (s : σ) : (pure x : Act σ α).result s = (.ok x, s) := rfl

@[simp] theorem result_ofUpdate (f : σ → Except Failure α × σ) (s : σ) :
    (ofUpdate f).result s = f s := rfl

@[simp] theorem result_ofExcept (r : Except Failure α) (s : σ) : (ofExcept r).result s = (r, s) := rfl

theorem result_bind (a : Act σ α) (f : α → Act σ β) (s : σ) :
    (a >>= f).result s =
      match a.result s with
      | (.ok x, t) => (f x).result t
      | (.error failure, t) => (.error failure, t) := by
  change ((ExceptT.bindCont f (a.result s).1 : StateM σ (Except Failure β)) (a.result s).2) = _
  rcases h : a.result s with ⟨_ | _, t⟩ <;> rfl

theorem result_bind_of_ok {a : Act σ α} {s t : σ} {x : α} (h : a.result s = (.ok x, t))
    (f : α → Act σ β) : (a >>= f).result s = (f x).result t := by
  rw [result_bind, h]

theorem result_bind_of_error {a : Act σ α} {s t : σ} {failure : Failure}
    (h : a.result s = (.error failure, t)) (f : α → Act σ β) :
    (a >>= f).result s = (.error failure, t) := by
  rw [result_bind, h]

/-- **Success of a sequence** is success of its parts. -/
theorem result_bind_eq_ok {a : Act σ α} {f : α → Act σ β} {s u : σ} {y : β} :
    (a >>= f).result s = (.ok y, u) ↔
      ∃ x t, a.result s = (.ok x, t) ∧ (f x).result t = (.ok y, u) := by
  rw [result_bind]
  rcases a.result s with ⟨_ | x, t⟩
  · simp
  · exact ⟨fun h => ⟨x, t, rfl, h⟩, by rintro ⟨_, _, ⟨⟩, h⟩; exact h⟩

theorem ofExcept_bind (r : Except Failure α) (f : α → Except Failure β) :
    (ofExcept (r >>= f) : Act σ β) = ofExcept r >>= fun x => ofExcept (f x) := by
  cases r <;> rfl

theorem result_ofExcept_eq_ok {r : Except Failure α} {s t : σ} {x : α} :
    (ofExcept r).result s = (.ok x, t) ↔ r = .ok x ∧ s = t := by
  simp

/-- Computations are the same if they come to the same from every state. -/
theorem ext_result {a b : Act σ α} (h : ∀ s, a.result s = b.result s) : a = b := funext h

/-! ### What a success needs -/

/-- The computation can only succeed if `p` holds. -/
def Needs (a : Act σ α) (p : Prop) : Prop := ∀ s x t, a.result s = (.ok x, t) → p

section Needs

variable {a : Act σ α} {f : α → Act σ β} {p : Prop}

theorem needs_ofExcept (r : Except Failure α) : (ofExcept r : Act σ α).Needs (∃ x, r = .ok x) :=
  fun _ x _ h => ⟨x, (result_ofExcept_eq_ok.mp h).1⟩

theorem Needs.mono (h : a.Needs p) {q : Prop} (hpq : p → q) : a.Needs q :=
  fun s x t hx => hpq (h s x t hx)

theorem Needs.and (h : a.Needs p) {q : Prop} (h' : a.Needs q) : a.Needs (p ∧ q) :=
  fun s x t hx => ⟨h s x t hx, h' s x t hx⟩

theorem Needs.bind_left (h : a.Needs p) (f : α → Act σ β) : (a >>= f).Needs p := by
  intro s y u hy
  obtain ⟨x, t, hx, -⟩ := result_bind_eq_ok.mp hy
  exact h s x t hx

theorem Needs.bind_right (h : ∀ x, (f x).Needs p) : (a >>= f).Needs p := by
  intro s y u hy
  obtain ⟨x, t, -, hx⟩ := result_bind_eq_ok.mp hy
  exact h x t y u hx

/-- What one step of a loop needs. -/
theorem Needs.foldlM {step : α → ι → Act σ α} {items : List ι} {item : ι} (hitem : item ∈ items)
    (h : ∀ x, (step x item).Needs p) (x : α) : (items.foldlM step x).Needs p := by
  induction items generalizing x with
  | nil => exact absurd hitem List.not_mem_nil
  | cons first items ih =>
    rw [List.foldlM_cons]
    rcases List.mem_cons.mp hitem with rfl | hitem
    · exact (h x).bind_left _
    · exact Needs.bind_right fun y => ih hitem y

end Needs

/-! ### After a success, and after a failure -/

/-- If the computation succeeds from `s` then `good` holds of its value and the state, and if it
fails then `bad` holds of the state. -/
def Ends (a : Act σ α) (s : σ) (good : α → σ → Prop) (bad : σ → Prop) : Prop :=
  match a.result s with
  | (.ok x, t) => good x t
  | (.error _, t) => bad t

section Ends

variable {good : α → σ → Prop} {bad : σ → Prop} {s : σ}

theorem ends_pure {x : α} (h : good x s) : (pure x : Act σ α).Ends s good bad := h

theorem ends_ofExcept {r : Except Failure α} (hok : ∀ x, r = .ok x → good x s)
    (herr : ∀ failure, r = .error failure → bad s) : (ofExcept r).Ends s good bad := by
  cases r with
  | ok x => exact hok x rfl
  | error failure => exact herr failure rfl

theorem Ends.of_ok {a : Act σ α} (h : a.Ends s good bad) {x : α} {t : σ}
    (hr : a.result s = (.ok x, t)) : good x t := by
  simpa only [Ends, hr] using h

theorem Ends.of_error {a : Act σ α} (h : a.Ends s good bad) {failure : Failure} {t : σ}
    (hr : a.result s = (.error failure, t)) : bad t := by
  simpa only [Ends, hr] using h

theorem Ends.exists_ok {a : Act σ α} (h : a.Ends s good fun _ => False) :
    ∃ x t, a.result s = (.ok x, t) ∧ good x t := by
  rcases hr : a.result s with ⟨failure | x, t⟩
  · exact (h.of_error hr).elim
  · exact ⟨x, t, rfl, h.of_ok hr⟩

theorem ends_of_forall {a : Act σ α} (hok : ∀ x t, a.result s = (.ok x, t) → good x t)
    (herr : ∀ failure t, a.result s = (.error failure, t) → bad t) : a.Ends s good bad := by
  rw [Ends]
  rcases hr : a.result s with ⟨failure | x, t⟩
  · exact herr failure t hr
  · exact hok x t hr

theorem Ends.mono {a : Act σ α} {good' : α → σ → Prop} {bad' : σ → Prop} (h : a.Ends s good bad)
    (hgood : ∀ x t, good x t → good' x t) (hbad : ∀ t, bad t → bad' t) : a.Ends s good' bad' :=
  ends_of_forall (fun x t hr => hgood x t (h.of_ok hr)) fun _ t hr => hbad t (h.of_error hr)

/-- Both things that hold at the end hold there together. -/
theorem Ends.and {a : Act σ α} {good' : α → σ → Prop} {bad' : σ → Prop} (h : a.Ends s good bad)
    (h' : a.Ends s good' bad') :
    a.Ends s (fun x t => good x t ∧ good' x t) fun t => bad t ∧ bad' t :=
  ends_of_forall (fun _ _ hr => ⟨h.of_ok hr, h'.of_ok hr⟩) fun _ _ hr => ⟨h.of_error hr, h'.of_error hr⟩

theorem Ends.bind {a : Act σ α} {f : α → Act σ β} {middle : α → σ → Prop} {good : β → σ → Prop}
    (ha : a.Ends s middle bad) (hf : ∀ x t, middle x t → (f x).Ends t good bad) :
    (a >>= f).Ends s good bad := by
  rcases hr : a.result s with ⟨failure | x, t⟩
  · have hbad : bad t := ha.of_error hr
    simpa only [Ends, result_bind_of_error hr] using hbad
  · have hend : (f x).Ends t good bad := hf x t (ha.of_ok hr)
    simpa only [Ends, result_bind_of_ok hr] using hend

/-- A loop, by what holds after each part of the list: `inv done x` after the items `done`. -/
theorem ends_foldlM {step : α → ι → Act σ α} (inv : List ι → α → σ → Prop) {items : List ι}
    (hstep : ∀ done item, item ∈ items → ∀ x t, inv done x t →
      (step x item).Ends t (inv (done ++ [item])) bad)
    (done : List ι) {x : α} (h : inv done x s) :
    (items.foldlM step x).Ends s (inv (done ++ items)) bad := by
  induction items generalizing done x s with
  | nil => exact ends_pure (by simpa using h)
  | cons item items ih =>
    rw [List.foldlM_cons]
    refine (hstep done item List.mem_cons_self x s h).bind fun y t hy => ?_
    have hrest := ih (fun done other hmem => hstep done other (List.mem_cons_of_mem _ hmem)) _ hy
    rwa [List.append_assoc] at hrest

/-- The values of a list of computations: `inv done values` after the items `done`. -/
theorem ends_mapM {f : ι → Act σ α} (inv : List ι → List α → σ → Prop) {items : List ι}
    (hstep : ∀ done values item, item ∈ items → ∀ t, inv done values t →
      (f item).Ends t (fun x u => inv (done ++ [item]) (values ++ [x]) u) bad)
    (done : List ι) (values : List α) (h : inv done values s) :
    (items.mapM f).Ends s (fun xs t => inv (done ++ items) (values ++ xs) t) bad := by
  induction items generalizing done values s with
  | nil => exact ends_pure (by simpa using h)
  | cons item items ih =>
    rw [List.mapM_cons]
    refine (hstep done values item List.mem_cons_self s h).bind fun x t hx => ?_
    have hrest := ih (fun done values other hmem =>
      hstep done values other (List.mem_cons_of_mem _ hmem)) _ _ hx
    refine hrest.bind fun xs u hxs => ends_pure ?_
    simpa using hxs

end Ends

/-! ### Invariants -/

/-- What holds of the state before holds of it afterwards, after a success and after a failure. -/
def Keeps (inv : σ → Prop) (a : Act σ α) : Prop := ∀ s, inv s → inv (a.result s).2

section Keeps

variable {inv : σ → Prop}

theorem keeps_pure (x : α) : Keeps inv (pure x : Act σ α) := fun _ hs => hs

theorem keeps_ofExcept (r : Except Failure α) : Keeps inv (ofExcept r : Act σ α) := fun _ hs => hs

theorem Keeps.bind {a : Act σ α} {f : α → Act σ β} (ha : Keeps inv a) (hf : ∀ x, Keeps inv (f x)) :
    Keeps inv (a >>= f) := by
  intro s hs
  have ht : inv (a.result s).2 := ha s hs
  rw [result_bind]
  rcases hr : a.result s with ⟨failure | x, t⟩
  · rw [hr] at ht
    exact ht
  · rw [hr] at ht
    exact hf x t ht

theorem Keeps.foldlM {step : α → ι → Act σ α} {items : List ι}
    (h : ∀ item ∈ items, ∀ x, Keeps inv (step x item)) (x : α) :
    Keeps inv (items.foldlM step x) := by
  induction items generalizing x with
  | nil => exact keeps_pure x
  | cons item items ih =>
    rw [List.foldlM_cons]
    exact (h item List.mem_cons_self x).bind
      fun y => ih (fun other hmem => h other (List.mem_cons_of_mem _ hmem)) y

theorem Keeps.mapM {f : ι → Act σ α} {items : List ι} (h : ∀ item ∈ items, Keeps inv (f item)) :
    Keeps inv (items.mapM f) := by
  induction items with
  | nil => exact keeps_pure []
  | cons item items ih =>
    rw [List.mapM_cons]
    exact (h item List.mem_cons_self).bind fun x =>
      (ih fun other hmem => h other (List.mem_cons_of_mem _ hmem)).bind fun xs => keeps_pure _

end Keeps

end Act

end FederatedSearch
