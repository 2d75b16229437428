import FederatedSearch.Proofs.Process.Ensures

/-!
# Processes side by side

A process may be nothing but two processes side by side, each of which works on a state of its own. Then
each step of the whole is a step of one of the two, and the whole ends well when both have, or fails with
what one of them fails with. `Process.Splits` says so step by step, which makes it true in whatever way
others interfere: `link` relates the states, and if others keep it, then it holds all the time.

The three need not take their steps at the same rate. The whole may take steps that concern neither part,
and a part may take steps that do not concern the whole.

A special case is a process that does what another one does on a simpler state, and takes some steps
besides (`Process.Shadows`). Then each of them can be seen as the whole and the other one as its only part.

## Main definitions

* `Process.Splits` — a process is two processes side by side
* `Process.Shadows` — a process does what another one does
* `Process.Besides` — the shadow works on the second of two states

## Main results

* `Splits.bind`, `Splits.seq`, `Splits.foldlM`, `splits_focus_first`, `splits_focus_second`
* `Shadows.bind`, `Shadows.foldlM`, `shadows_focus`
* `Shadows.splits`, `Shadows.splits_back`
* `Shadows.ensures` — what the shadow ensures
-/

namespace FederatedSearch

namespace Process

variable {α β γ α' β' γ' ι ρ σ τ : Type}

/-! ### Two processes -/

/-- The first process is the other two, side by side. -/
inductive Splits (link : ρ → σ → τ → Prop) (rel : γ → α → β → Prop) :
    Process ρ γ → Process σ α → Process τ β → Prop
  | ok {x : α} {y : β} {z : γ} (h : rel z x y) :
      Splits link rel (done (.ok z)) (done (.ok x)) (done (.ok y))
  | failsFirst {failure : Failure} {r : Process τ β} :
      Splits link rel (done (.error failure)) (done (.error failure)) r
  | failsSecond {failure : Failure} {q : Process σ α} :
      Splits link rel (done (.error failure)) q (done (.error failure))
  | silent {update : Bool → ρ → ρ} {next : Bool → ρ → Process ρ γ} {q : Process σ α} {r : Process τ β}
      (hlink : ∀ b s t u, link s t u → link (update b s) t u)
      (hnext : ∀ b s t u, link s t u → Splits link rel (next b s) q r) :
      Splits link rel (step update next) q r
  | stepFirst {update : Bool → ρ → ρ} {next : Bool → ρ → Process ρ γ} {update₁ : Bool → σ → σ}
      {next₁ : Bool → σ → Process σ α} {r : Process τ β}
      (hlink : ∀ b s t u, link s t u → link (update b s) (update₁ b t) u)
      (hnext : ∀ b s t u, link s t u → Splits link rel (next b s) (next₁ b t) r) :
      Splits link rel (step update next) (step update₁ next₁) r
  | stepSecond {update : Bool → ρ → ρ} {next : Bool → ρ → Process ρ γ} {q : Process σ α}
      {update₂ : Bool → τ → τ} {next₂ : Bool → τ → Process τ β}
      (hlink : ∀ b s t u, link s t u → link (update b s) t (update₂ b u))
      (hnext : ∀ b s t u, link s t u → Splits link rel (next b s) q (next₂ b u)) :
      Splits link rel (step update next) q (step update₂ next₂)
  | catchUpFirst {p : Process ρ γ} {update₁ : Bool → σ → σ} {next₁ : Bool → σ → Process σ α}
      {r : Process τ β} (hlink : ∀ s t u, link s t u → link s (update₁ false t) u)
      (hnext : ∀ s t u, link s t u → Splits link rel p (next₁ false t) r) :
      Splits link rel p (step update₁ next₁) r
  | catchUpSecond {p : Process ρ γ} {q : Process σ α} {update₂ : Bool → τ → τ}
      {next₂ : Bool → τ → Process τ β} (hlink : ∀ s t u, link s t u → link s t (update₂ false u))
      (hnext : ∀ s t u, link s t u → Splits link rel p q (next₂ false u)) :
      Splits link rel p q (step update₂ next₂)

section Splits

variable {link : ρ → σ → τ → Prop} {rel : γ → α → β → Prop} {rel' : γ' → α' → β' → Prop}
  {p : Process ρ γ} {q : Process σ α} {r : Process τ β}

theorem splits_pure {x : α} {y : β} {z : γ} (h : rel z x y) :
    Splits link rel (pure z) (pure x) (pure y) := .ok h

theorem Splits.bind {f : γ → Process ρ γ'} {g : α → Process σ α'} {h : β → Process τ β'}
    (hp : Splits link rel p q r) (hf : ∀ x y z, rel z x y → Splits link rel' (f z) (g x) (h y)) :
    Splits link rel' (p >>= f) (q >>= g) (r >>= h) := by
  induction hp with
  | ok hrel => exact hf _ _ _ hrel
  | failsFirst => exact .failsFirst
  | failsSecond => exact .failsSecond
  | silent hlink _ ih => exact .silent hlink ih
  | stepFirst hlink _ ih => exact .stepFirst hlink ih
  | stepSecond hlink _ ih => exact .stepSecond hlink ih
  | catchUpFirst hlink _ ih => exact .catchUpFirst hlink ih
  | catchUpSecond hlink _ ih => exact .catchUpSecond hlink ih

theorem Splits.mono {weaker : γ → α → β → Prop} (h : Splits link rel p q r)
    (hrel : ∀ x y z, rel z x y → weaker z x y) : Splits link weaker p q r := by
  have hbind : Splits link weaker (p >>= pure) (q >>= pure) (r >>= pure) :=
    h.bind fun x y z hxyz => splits_pure (hrel x y z hxyz)
  rwa [bind_pure, bind_pure, bind_pure] at hbind

/-- What is known of the values of the second part. -/
theorem Splits.and_second {good : β → Prop} {bad : Failure → Prop} (h : Splits link rel p q r)
    (hr : r.EndsOnly good bad) : Splits link (fun z x y => rel z x y ∧ good y) p q r := by
  induction h with
  | ok hrel => exact .ok ⟨hrel, hr⟩
  | failsFirst => exact .failsFirst
  | failsSecond => exact .failsSecond
  | silent hlink _ ih => exact .silent hlink fun b s t u hstu => ih b s t u hstu hr
  | stepFirst hlink _ ih => exact .stepFirst hlink fun b s t u hstu => ih b s t u hstu hr
  | stepSecond hlink _ ih => exact .stepSecond hlink fun b s t u hstu => ih b s t u hstu (hr b u)
  | catchUpFirst hlink _ ih => exact .catchUpFirst hlink fun s t u hstu => ih s t u hstu hr
  | catchUpSecond hlink _ ih => exact .catchUpSecond hlink fun s t u hstu => ih s t u hstu (hr false u)

/-- The whole takes the steps of one part and then those of the other, of whose values something is known. -/
theorem Splits.seq_of_endsOnly {left : Process ρ α} {right : Process ρ β} {good : β → Prop}
    {bad : Failure → Prop} (hleft : Splits link (fun z x (_ : Unit) => z = x) left q (pure ()))
    (hright : Splits link (fun w (_ : Unit) y => w = y) right (pure ()) r) (hr : r.EndsOnly good bad)
    {f : α → β → Process ρ γ'} {g : α → Process σ α'} {h : β → Process τ β'}
    (hf : ∀ x y, good y → Splits link rel' (f x y) (g x) (h y)) :
    Splits link rel' (left >>= fun x => right >>= fun y => f x y) (q >>= g) (r >>= h) := by
  have hpair : Splits link (fun z x y => z = (x, y)) (left >>= fun x => right >>= fun y => pure (x, y))
      (q >>= pure) (pure () >>= fun _ => r) := by
    refine hleft.bind ?_
    rintro _ _ x rfl
    have hsecond : Splits link (fun z x y => z = (x, y)) (right >>= fun y => pure (x, y))
        (pure () >>= fun _ => pure x) (r >>= pure) := by
      refine hright.bind ?_
      rintro _ _ y rfl
      exact splits_pure rfl
    rwa [pure_bind, bind_pure] at hsecond
  rw [bind_pure, pure_bind] at hpair
  have hbind : Splits link rel' ((left >>= fun x => right >>= fun y => pure (x, y)) >>= fun z => f z.1 z.2)
      (q >>= g) (r >>= h) := by
    refine (hpair.and_second hr).bind ?_
    rintro x y _ ⟨rfl, hy⟩
    exact hf x y hy
  simpa only [bind_assoc, pure_bind] using hbind

/-- The whole takes the steps of one part and then those of the other. -/
theorem Splits.seq {left : Process ρ α} {right : Process ρ β}
    (hleft : Splits link (fun z x (_ : Unit) => z = x) left q (pure ()))
    (hright : Splits link (fun w (_ : Unit) y => w = y) right (pure ()) r)
    {f : α → β → Process ρ γ'} {g : α → Process σ α'} {h : β → Process τ β'}
    (hf : ∀ x y, Splits link rel' (f x y) (g x) (h y)) :
    Splits link rel' (left >>= fun x => right >>= fun y => f x y) (q >>= g) (r >>= h) :=
  hleft.seq_of_endsOnly hright (endsOnly_true r) fun x y _ => hf x y

/-- Something that is known of a failure or a value, and that both parts see. -/
theorem splits_ofExcept (x : Except Failure γ) :
    Splits link (fun z x y => x = z ∧ y = z) (ofExcept x) (ofExcept x) (ofExcept x) := by
  cases x with
  | ok z => exact .ok ⟨rfl, rfl⟩
  | error failure => exact .failsFirst

theorem splits_ofExcept_first (x : Except Failure α) :
    Splits link (fun z x (_ : Unit) => z = x) (ofExcept x) (ofExcept x) (pure ()) := by
  cases x with
  | ok x => exact .ok rfl
  | error failure => exact .failsFirst

theorem splits_ofExcept_second (y : Except Failure β) :
    Splits link (fun z (_ : Unit) y => z = y) (ofExcept y) (pure ()) (ofExcept y) := by
  cases y with
  | ok y => exact .ok rfl
  | error failure => exact .failsSecond

theorem Splits.foldlM {step : γ → ι → Process ρ γ} {step₁ : α → ι → Process σ α}
    {step₂ : β → ι → Process τ β}
    (h : ∀ item x y z, rel z x y → Splits link rel (step z item) (step₁ x item) (step₂ y item))
    (items : List ι) {x : α} {y : β} {z : γ} (hxyz : rel z x y) :
    Splits link rel (items.foldlM step z) (items.foldlM step₁ x) (items.foldlM step₂ y) := by
  induction items generalizing x y z with
  | nil => exact splits_pure hxyz
  | cons item items ih =>
    rw [List.foldlM_cons, List.foldlM_cons, List.foldlM_cons]
    exact (h item x y z hxyz).bind fun x y z hxyz => ih hxyz

/-- Work on the part of the state that the first one works on. -/
theorem splits_focus_first {part : Part ρ σ} (hget : ∀ s t u, link s t u → part.get s = t)
    (hset : ∀ x s t u, link s t u → link (part.set x s) x u) (q : Process σ α) :
    Splits link (fun z x (_ : Unit) => z = x) (q.focus part) q (pure ()) := by
  induction q with
  | done outcome =>
    cases outcome with
    | ok x => exact .ok rfl
    | error failure => exact .failsFirst
  | step update next ih =>
    refine .stepFirst (fun b s t u h => ?_) fun b s t u h => ?_
    · rw [hget s t u h]
      exact hset _ s t u h
    · rw [hget s t u h]
      exact ih b t

/-- Work on the part of the state that the second one works on. -/
theorem splits_focus_second {part : Part ρ τ} (hget : ∀ s t u, link s t u → part.get s = u)
    (hset : ∀ y s t u, link s t u → link (part.set y s) t y) (r : Process τ β) :
    Splits link (fun z (_ : Unit) y => z = y) (r.focus part) (pure ()) r := by
  induction r with
  | done outcome =>
    cases outcome with
    | ok y => exact .ok rfl
    | error failure => exact .failsSecond
  | step update next ih =>
    refine .stepSecond (fun b s t u h => ?_) fun b s t u h => ?_
    · rw [hget s t u h]
      exact hset _ s t u h
    · rw [hget s t u h]
      exact ih b u

end Splits

/-! ### One process and its shadow -/

/-- The first process does what the second one does on a simpler state, with steps in between of which
the second one knows nothing. -/
inductive Shadows (link : σ → τ → Prop) (rel : α → β → Prop) : Process σ α → Process τ β → Prop
  | ok {x : α} {y : β} (h : rel x y) : Shadows link rel (done (.ok x)) (done (.ok y))
  | fails {failure : Failure} : Shadows link rel (done (.error failure)) (done (.error failure))
  | step {update : Bool → σ → σ} {next : Bool → σ → Process σ α} {update' : Bool → τ → τ}
      {next' : Bool → τ → Process τ β} (hlink : ∀ b s t, link s t → link (update b s) (update' b t))
      (hnext : ∀ b s t, link s t → Shadows link rel (next b s) (next' b t)) :
      Shadows link rel (step update next) (step update' next')
  | besides {update : Bool → σ → σ} {next : Bool → σ → Process σ α} {q : Process τ β}
      (hlink : ∀ b s t, link s t → link (update b s) t)
      (hnext : ∀ b s t, link s t → Shadows link rel (next b s) q) :
      Shadows link rel (step update next) q

section Shadows

variable {link : σ → τ → Prop} {rel : α → β → Prop} {rel' : α' → β' → Prop} {p : Process σ α}
  {q : Process τ β}

theorem shadows_pure {x : α} {y : β} (h : rel x y) : Shadows link rel (pure x) (pure y) := .ok h

theorem Shadows.mono {weaker : α → β → Prop} (h : Shadows link rel p q)
    (hrel : ∀ x y, rel x y → weaker x y) : Shadows link weaker p q := by
  induction h with
  | ok h => exact .ok (hrel _ _ h)
  | fails => exact .fails
  | step hlink _ ih => exact .step hlink ih
  | besides hlink _ ih => exact .besides hlink ih

theorem Shadows.bind {f : α → Process σ α'} {g : β → Process τ β'} (hp : Shadows link rel p q)
    (hf : ∀ x y, rel x y → Shadows link rel' (f x) (g y)) : Shadows link rel' (p >>= f) (q >>= g) := by
  induction hp with
  | ok hrel => exact hf _ _ hrel
  | fails => exact .fails
  | step hlink _ ih => exact .step hlink ih
  | besides hlink _ ih => exact .besides hlink ih

theorem Shadows.foldlM {step : α → ι → Process σ α} {step' : β → ι → Process τ β} {items : List ι}
    (h : ∀ item ∈ items, ∀ x y, rel x y → Shadows link rel (step x item) (step' y item)) {x : α} {y : β}
    (hxy : rel x y) : Shadows link rel (items.foldlM step x) (items.foldlM step' y) := by
  induction items generalizing x y with
  | nil => exact shadows_pure hxy
  | cons item items ih =>
    rw [List.foldlM_cons, List.foldlM_cons]
    exact (h item List.mem_cons_self x y hxy).bind fun x y hxy =>
      ih (fun other hmem => h other (List.mem_cons_of_mem _ hmem)) hxy

/-- Work on the part of the state that the shadow works on, with what is known of its values. -/
theorem shadows_focus {part : Part σ τ} (hget : ∀ s t, link s t → part.get s = t)
    (hset : ∀ y s t, link s t → link (part.set y s) y) {good : β → Prop} {bad : Failure → Prop}
    {q : Process τ β} (h : q.EndsOnly good bad) :
    Shadows link (fun x y => x = y ∧ good y) (q.focus part) q := by
  induction q with
  | done outcome =>
    cases outcome with
    | ok y => exact .ok ⟨rfl, h⟩
    | error failure => exact .fails
  | step update next ih =>
    refine .step (fun b s t hst => ?_) fun b s t hst => ?_
    · rw [hget s t hst]
      exact hset _ s t hst
    · rw [hget s t hst]
      exact ih b t (h b t)

/-- A process that nobody interferes with comes to the same as its shadow. -/
theorem Shadows.alone {p : Process σ α} {q : Process τ α} (h : Shadows link Eq p q) {s : σ} {t : τ}
    (hst : link s t) :
    (p.alone.result s).1 = (q.alone.result t).1 ∧ link (p.alone.result s).2 (q.alone.result t).2 := by
  induction h generalizing s t with
  | ok hrel => exact ⟨congrArg Except.ok hrel, hst⟩
  | fails => exact ⟨rfl, hst⟩
  | step hlink _ ih => exact ih false s t hst (hlink false s t hst)
  | besides hlink _ ih => exact ih false s t hst (hlink false s t hst)

/-- The process as a whole whose only part is its shadow. -/
theorem Shadows.splits (h : Shadows link rel p q) :
    Splits (fun s t (_ : Unit) => link s t) (fun x y (_ : Unit) => rel x y) p q (pure ()) := by
  induction h with
  | ok hrel => exact .ok hrel
  | fails => exact .failsFirst
  | step hlink _ ih =>
    exact .stepFirst (fun b s t _ hst => hlink b s t hst) fun b s t _ hst => ih b s t hst
  | besides hlink _ ih =>
    exact .silent (fun b s t _ hst => hlink b s t hst) fun b s t _ hst => ih b s t hst

/-- The shadow as a whole whose only part is the process. -/
theorem Shadows.splits_back (h : Shadows link rel p q) :
    Splits (fun t s (_ : Unit) => link s t) (fun y x (_ : Unit) => rel x y) q p (pure ()) := by
  induction h with
  | ok hrel => exact .ok hrel
  | fails => exact .failsFirst
  | step hlink _ ih =>
    exact .stepFirst (fun b t s _ hst => hlink b s t hst) fun b t s _ hst => ih b s t hst
  | besides hlink _ ih =>
    exact .catchUpFirst (fun t s _ hst => hlink false s t hst) fun t s _ hst => ih false s t hst

/-! ### A state beside that of the shadow -/

/-- The second state is the one that the shadow works on, and something holds of the first one. -/
def Besides (inv : σ → Prop) (s : σ × τ) (t : τ) : Prop := inv s.1 ∧ s.2 = t

theorem shadows_second {inv : σ → Prop} {good : β → Prop} {bad : Failure → Prop} {q : Process τ β}
    (h : q.EndsOnly good bad) :
    Shadows (Besides inv) (fun x y => x = y ∧ good y) (q.focus .second) q :=
  shadows_focus (fun _ _ h => h.2) (fun _ _ _ h => ⟨h.1, rfl⟩) h

theorem shadows_second_eq (inv : σ → Prop) (q : Process τ β) :
    Shadows (Besides inv) Eq (q.focus .second) q :=
  (shadows_second (endsOnly_true q)).mono fun _ _ h => h.1

/-- What the shadow ensures, when something holds of the state beside all the time. -/
theorem Shadows.ensures {inv : σ → Prop} {p : Process (σ × τ) α} {q : Process τ β}
    (h : Shadows (Besides inv) rel p q) {R : Regime τ} {good : β → τ → Prop} {bad : Failure → Prop}
    (hgood : ∀ y, R.Stable (good y)) {s : σ × τ} (hs : inv s.1) (hq : q.Ensures R good bad s.2) :
    p.Ensures (R.besides inv) (fun x t => ∃ y, rel x y ∧ good y t.2) bad s := by
  induction h generalizing s with
  | ok hrel => exact ⟨_, hrel, hq⟩
  | fails => exact hq
  | step hlink _ ih =>
    intro t spurious hst hspurious
    obtain ⟨hmay, hnext⟩ := hq t.2 spurious hst.2 hspurious
    have ht : Besides inv t t.2 := ⟨hst.1 hs, rfl⟩
    obtain ⟨hinv, hsecond⟩ := hlink spurious t t.2 ht
    refine ⟨⟨fun _ => hinv, by rwa [hsecond]⟩, ih spurious t t.2 ht hinv (by rwa [hsecond])⟩
  | besides hlink _ ih =>
    intro t spurious hst _
    have ht : Besides inv t t.2 := ⟨hst.1 hs, rfl⟩
    obtain ⟨hinv, hsecond⟩ := hlink spurious t t.2 ht
    -- the shadow has not moved, but others may have
    refine ⟨⟨fun _ => hinv, by rw [hsecond]; exact R.refl _⟩, ih spurious t t.2 ht hinv ?_⟩
    rw [hsecond]
    exact hq.later hgood hst.2

end Shadows

end Process

end FederatedSearch
