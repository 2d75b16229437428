import FederatedSearch.Proofs.Act.Outcome

/-!
# Two computations of one thing

Two computations may differ in how they come to something and in what they keep for later use, and
yet come to the same. `Act.Mirrors` says so: from any states for which the invariants hold, either
both fail or both succeed with related values. Nothing is said about which failure it is, nor about
the states, except that the invariants still hold of them. Some failures may be spared: if one of the
computations fails in such a way then nothing is said of the other.

A computation may also come to the same from all such states, as a search does whose groups share
nothing but key columns. `Act.Yields` says what it comes to, and two such computations mirror each
other if their outcomes agree. Of other computations it is only known what they may come to
(`Act.Comes`).

Like the rules for `Act.Ends`, the rules below follow the structure of programs.

## Main definitions

* `Act.Comes` — what a computation may come to, with an invariant
* `Act.Mirrors` — either both fail, or both succeed with related values
* `Act.Yields` — the same outcome from all states for which the invariant holds

## Main results

* `Mirrors.bind`, `Mirrors.foldlM`, `mirrors_of_comes`
* `Yields.bind`, `Yields.mapM`, `Yields.mirrors`
* `agrees_iff` — what it takes for two outcomes to agree
-/

namespace FederatedSearch

variable {α β α' β' ι : Type}

/-! ### Outcomes that agree -/

section Agrees

variable {rel : α → β → Prop} {r : Except Failure α} {r' : Except Failure β}

/-- Outcomes agree if whenever one of them is a success the other one is, with a related value. -/
theorem agrees_iff :
    Agrees rel r r' ↔
      (∀ x, r = .ok x → ∃ y, r' = .ok y ∧ rel x y) ∧ ∀ y, r' = .ok y → ∃ x, r = .ok x ∧ rel x y := by
  constructor
  · rintro (h | _)
    · exact ⟨fun _ hx => ⟨_, rfl, Except.ok.inj hx ▸ h⟩, fun _ hy => ⟨_, rfl, Except.ok.inj hy ▸ h⟩⟩
    · exact ⟨nofun, nofun⟩
  · rintro ⟨hok, hok'⟩
    rcases r with failure | x
    · rcases r' with failure' | y
      · exact .error failure failure'
      · obtain ⟨x, hx, -⟩ := hok' y rfl
        exact absurd hx nofun
    · obtain ⟨y, rfl, hrel⟩ := hok x rfl
      exact .ok hrel

theorem agrees_refl {rel : α → α → Prop} (h : ∀ x, r = .ok x → rel x x) : Agrees rel r r :=
  agrees_iff.mpr ⟨fun x hx => ⟨x, hx, h x hx⟩, fun x hx => ⟨x, hx, h x hx⟩⟩

theorem agrees_of_iff {r r' : Except Failure α} (h : ∀ x, r = .ok x ↔ r' = .ok x) :
    Agrees Eq r r' :=
  agrees_iff.mpr ⟨fun x hx => ⟨x, (h x).mp hx, rfl⟩, fun x hx => ⟨x, (h x).mpr hx, rfl⟩⟩

/-- Two successes that agree. -/
theorem Agrees.of_ok (h : Agrees rel r r') {x : α} {y : β} (hx : r = .ok x) (hy : r' = .ok y) :
    rel x y := by
  obtain ⟨y', hy', hrel⟩ := (agrees_iff.mp h).1 x hx
  rwa [← Except.ok.inj (hy'.symm.trans hy)]

theorem Agrees.symm_eq {r r' : Except Failure α} (h : Agrees Eq r r') : Agrees Eq r' r := by
  cases h with
  | ok h => exact .ok h.symm
  | error failure failure' => exact .error failure' failure

theorem Agrees.trans_eq {r'' : Except Failure β} (h : Agrees rel r r') (h' : Agrees Eq r' r'') :
    Agrees rel r r'' := by
  cases h' with
  | ok hsame => exact hsame ▸ h
  | error failure failure' => cases h with | error first _ => exact .error first failure'

theorem Agrees.eq_trans {r'' : Except Failure α} (h : Agrees Eq r'' r) (h' : Agrees rel r r') :
    Agrees rel r'' r' := by
  cases h with
  | ok hsame => exact hsame ▸ h'
  | error failure failure' => cases h' with | error _ last => exact .error failure last

/-- The values are those of the outcomes. -/
theorem Agrees.and_eq (h : Agrees rel r r') :
    Agrees (fun x y => rel x y ∧ r = .ok x ∧ r' = .ok y) r r' := by
  cases h with
  | ok h => exact .ok ⟨h, rfl, rfl⟩
  | error failure failure' => exact .error failure failure'

theorem Agrees.bind {rel' : α' → β' → Prop} {f : α → Except Failure α'} {g : β → Except Failure β'}
    (h : Agrees rel r r') (hf : ∀ x y, rel x y → Agrees rel' (f x) (g y)) :
    Agrees rel' (r >>= f) (r' >>= g) := by
  cases h with
  | ok h => exact hf _ _ h
  | error failure failure' => exact .error failure failure'

/-- What follows the same outcome matters only for the value that there is. -/
theorem agrees_bind_self {r : Except Failure ι} {f : ι → Except Failure α} {g : ι → Except Failure β}
    (h : ∀ x, r = .ok x → Agrees rel (f x) (g x)) : Agrees rel (r >>= f) (r >>= g) := by
  cases r with
  | error failure => exact .error failure failure
  | ok x => exact h x rfl

/-- Lists of outcomes that agree one by one. -/
theorem agrees_mapM {items : List ι} {f : ι → Except Failure α} {g : ι → Except Failure β}
    (h : ∀ item ∈ items, Agrees rel (f item) (g item)) :
    Agrees (List.Forall₂ rel) (items.mapM f) (items.mapM g) := by
  induction items with
  | nil => exact .ok .nil
  | cons item items ih =>
    obtain ⟨hitem, hrest⟩ := List.forall_mem_cons.mp h
    rw [List.mapM_cons, List.mapM_cons]
    exact hitem.bind fun x y hxy => (ih hrest).bind fun xs ys hall => .ok (.cons hxy hall)

end Agrees

namespace Act

variable {σ τ : Type}

/-! ### Outcomes and an invariant -/

/-- From any state for which the invariant holds the computation comes to something `good`, or it fails in
a way that is `bad`. The invariant holds of the state afterwards. -/
def Comes (inv : σ → Prop) (good : α → Prop) (bad : Failure → Prop) (a : Act σ α) : Prop :=
  ∀ s, inv s → inv (a.result s).2 ∧ Meets good bad (a.result s).1

section Comes

variable {inv : σ → Prop} {good : α → Prop} {bad : Failure → Prop} {a : Act σ α}

theorem comes_of_keeps (hkeeps : Keeps inv a) (h : ∀ s, inv s → Meets good bad (a.result s).1) :
    Comes inv good bad a := fun s hs => ⟨hkeeps s hs, h s hs⟩

theorem Comes.mono {good' : α → Prop} {bad' : Failure → Prop} (h : Comes inv good bad a)
    (hgood : ∀ x, good x → good' x) (hbad : ∀ failure, bad failure → bad' failure) :
    Comes inv good' bad' a := fun s hs => ⟨(h s hs).1, (h s hs).2.mono hgood hbad⟩

theorem comes_pure {x : α} (h : good x) : Comes inv good bad (pure x) := fun _ hs => ⟨hs, h⟩

theorem Comes.bind {f : α → Act σ β} {good' : β → Prop} (h : Comes inv good bad a)
    (hf : ∀ x, good x → Comes inv good' bad (f x)) : Comes inv good' bad (a >>= f) := by
  intro s hs
  obtain ⟨hs', hends⟩ := h s hs
  rw [result_bind]
  rcases hr : a.result s with ⟨failure | x, t⟩ <;> rw [hr] at hs' hends
  · exact ⟨hs', hends⟩
  · exact hf x hends t hs'

theorem Comes.keeps (h : Comes inv good bad a) : Keeps inv a := fun s hs => (h s hs).1

/-- What it comes to from one state. -/
theorem Comes.ends (h : Comes inv good bad a) {s : σ} (hs : inv s) :
    a.Ends s (fun x t => inv t ∧ good x) fun _ => True := by
  obtain ⟨hs', hends⟩ := h s hs
  refine ends_of_forall (fun x t hr => ?_) fun _ _ _ => trivial
  rw [hr] at hs' hends
  exact ⟨hs', hends⟩

end Comes

/-! ### Computations side by side -/

/-- From states for which the invariants hold, either both computations fail or both succeed with
related values, and the invariants hold of the states afterwards; unless one of them fails in a way that
is `spared`. -/
def Mirrors (spared : Failure → Prop) (inv : σ → Prop) (inv' : τ → Prop) (rel : α → β → Prop)
    (a : Act σ α) (b : Act τ β) : Prop :=
  ∀ s t, inv s → inv' t →
    (Agrees rel (a.result s).1 (b.result t).1 ∧ inv (a.result s).2 ∧ inv' (b.result t).2) ∨
      (∃ failure, (a.result s).1 = .error failure ∧ spared failure) ∨
        ∃ failure, (b.result t).1 = .error failure ∧ spared failure

section Mirrors

variable {spared : Failure → Prop} {inv : σ → Prop} {inv' : τ → Prop} {rel : α → β → Prop}
  {a : Act σ α} {b : Act τ β}

theorem mirrors_pure {x : α} {y : β} (h : rel x y) :
    Mirrors spared inv inv' rel (pure x) (pure y) := fun _ _ hs ht => .inl ⟨.ok h, hs, ht⟩

theorem mirrors_ofExcept {r : Except Failure α} {r' : Except Failure β} (h : Agrees rel r r') :
    Mirrors spared inv inv' rel (ofExcept r) (ofExcept r') := fun _ _ hs ht => .inl ⟨h, hs, ht⟩

theorem mirrors_ofExcept_self (r : Except Failure α) :
    Mirrors spared inv inv' Eq (ofExcept r) (ofExcept r) := mirrors_ofExcept (agrees_refl fun _ _ => rfl)

/-- Two values from computations that mirror each other are related. -/
theorem Mirrors.of_ok (h : Mirrors spared inv inv' rel a b) {s : σ} {t : τ} (hs : inv s) (ht : inv' t)
    {x : α} {y : β} (hx : (a.result s).1 = .ok x) (hy : (b.result t).1 = .ok y) : rel x y := by
  rcases h s t hs ht with ⟨hagrees, -⟩ | ⟨failure, hfails, -⟩ | ⟨failure, hfails, -⟩
  · exact hagrees.of_ok hx hy
  · exact absurd (hfails.symm.trans hx) error_ne_ok
  · exact absurd (hfails.symm.trans hy) error_ne_ok

theorem Mirrors.bind {rel' : α' → β' → Prop} {f : α → Act σ α'} {g : β → Act τ β'}
    (h : Mirrors spared inv inv' rel a b)
    (hf : ∀ x y, rel x y → Mirrors spared inv inv' rel' (f x) (g y)) :
    Mirrors spared inv inv' rel' (a >>= f) (b >>= g) := by
  intro s t hs ht
  rcases ha : a.result s with ⟨r, s'⟩
  rcases hb : b.result t with ⟨r', t'⟩
  have hboth := h s t hs ht
  rw [ha, hb] at hboth
  rcases hboth with ⟨hagrees, hs', ht'⟩ | ⟨failure, rfl, hspared⟩ | ⟨failure, rfl, hspared⟩
  · cases hagrees with
    | ok hxy =>
      rw [result_bind_of_ok ha, result_bind_of_ok hb]
      exact hf _ _ hxy s' t' hs' ht'
    | error failure failure' =>
      rw [result_bind_of_error ha, result_bind_of_error hb]
      exact .inl ⟨.error failure failure', hs', ht'⟩
  · rw [result_bind_of_error ha]
    exact .inr (.inl ⟨failure, rfl, hspared⟩)
  · rw [result_bind_of_error hb]
    exact .inr (.inr ⟨failure, rfl, hspared⟩)

/-- Two loops over the same items. -/
theorem Mirrors.foldlM {step : α → ι → Act σ α} {step' : β → ι → Act τ β} {items : List ι}
    (h : ∀ item ∈ items, ∀ x y, rel x y → Mirrors spared inv inv' rel (step x item) (step' y item))
    {x : α} {y : β} (hxy : rel x y) :
    Mirrors spared inv inv' rel (items.foldlM step x) (items.foldlM step' y) := by
  induction items generalizing x y with
  | nil => exact mirrors_pure hxy
  | cons item items ih =>
    rw [List.foldlM_cons, List.foldlM_cons]
    exact (h item List.mem_cons_self x y hxy).bind fun x y hxy =>
      ih (fun other hmem => h other (List.mem_cons_of_mem _ hmem)) hxy

/-- What both computations may come to is enough if that determines the outcomes, but for failures that
are spared. -/
theorem mirrors_of_comes {good : α → Prop} {bad : Failure → Prop} {good' : β → Prop}
    {bad' : Failure → Prop} (ha : Comes inv good bad a) (hb : Comes inv' good' bad' b)
    (hok : ∀ x y, good x → good' y → rel x y)
    (hleft : ∀ x failure, good x → bad' failure → spared failure)
    (hright : ∀ y failure, good' y → bad failure → spared failure) :
    Mirrors spared inv inv' rel a b := by
  intro s t hs ht
  obtain ⟨hs', hends⟩ := ha s hs
  obtain ⟨ht', hends'⟩ := hb t ht
  rcases hr : (a.result s).1 with failure | x <;> rcases hr' : (b.result t).1 with failure' | y <;>
    rw [hr] at hends <;> rw [hr'] at hends'
  · exact .inl ⟨.error failure failure', hs', ht'⟩
  · exact .inr (.inl ⟨failure, rfl, hright y failure hends' hends⟩)
  · exact .inr (.inr ⟨failure', rfl, hleft x failure' hends hends'⟩)
  · exact .inl ⟨.ok (hok x y hends hends'), hs', ht'⟩

end Mirrors

/-! ### Outcomes that do not depend on the state -/

/-- From any state for which the invariant holds the computation comes to this outcome, or to some other
failure if this is one, and the invariant still holds afterwards. -/
def Yields (inv : σ → Prop) (a : Act σ α) (r : Except Failure α) : Prop :=
  ∀ s, inv s → Agrees Eq (a.result s).1 r ∧ inv (a.result s).2

section Yields

variable {inv : σ → Prop} {a : Act σ α} {r : Except Failure α}

theorem yields_ofExcept (r : Except Failure α) : Yields inv (ofExcept r) r :=
  fun _ hs => ⟨agrees_refl fun _ _ => rfl, hs⟩

theorem yields_pure (x : α) : Yields inv (pure x) (.ok x) := fun _ hs => ⟨.ok rfl, hs⟩

/-- What follows a success matters only for the value that there is. -/
theorem Yields.bind_of_ok {f : α → Act σ β} {g : α → Except Failure β} (h : Yields inv a r)
    (hf : ∀ x, r = .ok x → Yields inv (f x) (g x)) : Yields inv (a >>= f) (r >>= g) := by
  intro s hs
  obtain ⟨hagrees, hs'⟩ := h s hs
  rcases ha : a.result s with ⟨r', t⟩
  rw [ha] at hagrees hs'
  cases hagrees with
  | ok hsame =>
    subst hsame
    rw [result_bind_of_ok ha]
    exact hf _ rfl t hs'
  | error failure failure' =>
    rw [result_bind_of_error ha]
    exact ⟨.error failure failure', hs'⟩

theorem Yields.bind {f : α → Act σ β} {g : α → Except Failure β} (h : Yields inv a r)
    (hf : ∀ x, Yields inv (f x) (g x)) : Yields inv (a >>= f) (r >>= g) :=
  h.bind_of_ok fun x _ => hf x

theorem Yields.mapM {f : ι → Act σ α} {g : ι → Except Failure α} {items : List ι}
    (h : ∀ item ∈ items, Yields inv (f item) (g item)) :
    Yields inv (items.mapM f) (items.mapM g) := by
  induction items with
  | nil => exact yields_pure []
  | cons item items ih =>
    rw [List.mapM_cons, List.mapM_cons]
    refine (h item List.mem_cons_self).bind fun x => ?_
    exact (ih fun other hmem => h other (List.mem_cons_of_mem _ hmem)).bind fun xs => yields_pure _

theorem Yields.comes (h : Yields inv a r) : Comes inv (fun x => r = .ok x) (fun _ => True) a := by
  intro s hs
  obtain ⟨hagrees, hs'⟩ := h s hs
  refine ⟨hs', meets_iff.mpr ⟨fun x hx => ?_, fun _ _ => trivial⟩⟩
  obtain ⟨y, hy, rfl⟩ := (agrees_iff.mp hagrees).1 x hx
  exact hy

theorem Yields.mirrors {spared : Failure → Prop} {inv' : τ → Prop} {rel : α → β → Prop} {b : Act τ β}
    {r' : Except Failure β} (h : Yields inv a r) (h' : Yields inv' b r') (hagrees : Agrees rel r r') :
    Mirrors spared inv inv' rel a b := by
  intro s t hs ht
  obtain ⟨hsame, hs'⟩ := h s hs
  obtain ⟨hsame', ht'⟩ := h' t ht
  exact .inl ⟨(hsame.eq_trans hagrees).trans_eq hsame'.symm_eq, hs', ht'⟩

end Yields

end Act

end FederatedSearch
