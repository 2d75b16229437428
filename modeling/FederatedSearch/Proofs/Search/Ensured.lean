import FederatedSearch.Proofs.Process.Ensures
import FederatedSearch.Proofs.Search.Interleaving

/-!
# Groups that keep to a regime

If each group of a gathering keeps to a regime whatever the others do, as long as these keep to it as well,
then all of them do. What a group ensures at its end still holds when all have ended, if nothing that the
regime allows makes it false. In this way what a search comes to is known on every schedule, from what a
group does that is interfered with.

## Main definitions

* `Gathering.Ensured` — what holds of the groups after some turns

## Main results

* `Ensured.step`, `Ensured.run` — one turn, and all turns of a schedule
* `Gathering.ensures_gather` — what a gathering comes to
* `Gathering.endsOnly_gather`, `Gathering.agrees_gather_ofExcept` — groups that end in the same way
  whatever they find
-/

namespace FederatedSearch

namespace Gathering

variable {P ι σ : Type} {R : Regime σ} {good : Nat → P → σ → Prop} {bad : Failure → Prop}

/-- What holds of group `i`. -/
def EnsuredGroup (R : Regime σ) (good : Nat → P → σ → Prop) (bad : Failure → Prop) (i : Nat) (s : σ) :
    GroupState σ P → Prop
  | ⟨.waiting job, result⟩ => job.Ensures R (good i) bad s ∧ result = none
  | ⟨.running rest, result⟩ => rest.Ensures R (good i) bad s ∧ result = none
  | ⟨.failing failure, result⟩ => bad failure ∧ result = none
  | ⟨.ended, result⟩ => ∀ p, result = some p → good i p s

/-- What holds after some turns that started from `s`. -/
structure Ensured (R : Regime σ) (good : Nat → P → σ → Prop) (bad : Failure → Prop) (s : σ)
    (g : Gathering σ P) : Prop where
  may : R.may s g.store
  groups : ∀ i group, g.groups[i]? = some group → EnsuredGroup R good bad i g.store group
  noted : ∀ failure, g.firstFailure = some failure → bad failure

section Turns

variable (hstable : ∀ i p, R.Stable (good i p))
include hstable

theorem EnsuredGroup.later {i : Nat} {s t : σ} {group : GroupState σ P}
    (h : EnsuredGroup R good bad i s group) (hst : R.may s t) : EnsuredGroup R good bad i t group := by
  obtain ⟨progress, result⟩ := group
  cases progress with
  | waiting job => exact ⟨h.1.later (hstable i) hst, h.2⟩
  | running rest => exact ⟨h.1.later (hstable i) hst, h.2⟩
  | failing failure => exact h
  | ended => exact fun p hp => hstable i p s t hst (h p hp)

variable {s : σ} {g : Gathering σ P} (h : Ensured R good bad s g)
include h

/-- A turn changes its own group, and the state as the regime allows. -/
theorem Ensured.set {i : Nat} {old : GroupState σ P} (hget : g.groups[i]? = some old) {t : σ}
    (hst : R.may g.store t) (state : GroupState σ P) (hstate : EnsuredGroup R good bad i t state) :
    Ensured R good bad s ({ g with store := t }.set i state) where
  may := R.trans h.may hst
  groups j group hj := by
    by_cases hji : j = i
    · subst hji
      rw [getElem?_set_self (g := { g with store := t }) hget] at hj
      rwa [← Option.some.inj hj]
    · rw [getElem?_set_of_ne _ hji] at hj
      exact (h.groups j group hj).later hstable hst
  noted := h.noted

/-- **One turn** keeps what holds. -/
theorem Ensured.step {turn : GroupTurn} (hspurious : turn.spurious = true → R.spurious) :
    Ensured R good bad s (g.step turn) := by
  have hmoves := moves_step g turn
  generalize g.step turn = g' at hmoves
  have hrefl := R.refl g.store
  cases hmoves with
  | unknown => exact h
  | ended => exact h
  | enter hget =>
    obtain ⟨hensures, hresult⟩ := h.groups _ _ hget
    exact h.set hstable hget hrefl _ ⟨hensures, hresult⟩
  | skip hget =>
    obtain ⟨-, rfl⟩ := h.groups _ _ hget
    exact h.set hstable hget hrefl _ nofun
  | access hget =>
    obtain ⟨hensures, hresult⟩ := h.groups _ _ hget
    obtain ⟨hmay, hnext⟩ := hensures g.store turn.spurious hrefl hspurious
    exact h.set hstable hget hmay _ ⟨hnext, hresult⟩
  | publish hget =>
    obtain ⟨hgood, -⟩ := h.groups _ _ hget
    exact h.set hstable hget hrefl _ fun p hp => Option.some.inj hp ▸ hgood
  | @raise failure result hget =>
    obtain ⟨hbad, hresult⟩ := h.groups _ _ hget
    have hset := h.set hstable hget hrefl ⟨.failing failure, result⟩ ⟨hbad, hresult⟩
    exact { hset with }
  | @note failure result hget =>
    obtain ⟨hbad, rfl⟩ := h.groups _ _ hget
    have hset := h.set hstable hget hrefl ⟨.ended, none⟩ nofun
    refine { hset with noted := fun other hother => ?_ }
    rcases hfirst : g.firstFailure with _ | first
    · rw [firstFailure_set, hfirst] at hother
      exact Option.some.inj hother ▸ hbad
    · rw [firstFailure_set, hfirst] at hother
      exact h.noted other (hfirst.trans hother)

/-- **All turns** of a schedule. -/
theorem Ensured.run {turns : Schedule} (hspurious : ∀ turn ∈ turns, turn.spurious = true → R.spurious) :
    Ensured R good bad s (g.run turns) := by
  induction turns generalizing g with
  | nil => exact h
  | cons turn turns ih =>
    obtain ⟨hturn, hturns⟩ := List.forall_mem_cons.mp hspurious
    exact ih (h.step hstable hturn) hturns

end Turns

/-- **What a gathering comes to**, whatever its schedule, if each job ensures something. -/
theorem ensures_gather {items : List ι} {job : ι → Process σ P} {good : ι → P → σ → Prop} {s : σ}
    (hjobs : ∀ item ∈ items, (job item).Ensures R (good item) bad s)
    (hstable : ∀ item p, R.Stable (good item p)) {schedule : Schedule}
    (hspurious : ∀ turn ∈ schedule, turn.spurious = true → R.spurious) (core : String) :
    R.may s ((gather core schedule (items.map job)).result s).2 ∧
      Meets (List.Forall₂ (fun item p => good item p ((gather core schedule (items.map job)).result s).2)
        items) bad ((gather core schedule (items.map job)).result s).1 := by
  have hstart : Ensured R (fun i p t => ∀ item, items[i]? = some item → good item p t) bad s
      (start s (items.map job)) := by
    refine ⟨R.refl s, fun i group hget => ?_, nofun⟩
    rw [start, List.getElem?_map, List.getElem?_map, Option.map_map, Option.map_eq_some_iff] at hget
    obtain ⟨item, hitem, rfl⟩ := hget
    refine ⟨(hjobs item (List.mem_of_getElem? hitem)).mono (fun p t _ hp other hother => ?_)
      fun _ h => h, rfl⟩
    rwa [← Option.some.inj (hitem.symm.trans hother)]
  have hstable' : ∀ (i : Nat) (p : P),
      R.Stable fun t => ∀ item, items[i]? = some item → good item p t :=
    fun i p s t hst h item hitem => hstable item p s t hst (h item hitem)
  have hturns : ∀ turn ∈ turnsOf schedule s (items.map job), turn.spurious = true → R.spurious :=
    fun turn hmem htrue => hspurious turn (mem_of_mem_turnsOf hmem htrue) htrue
  have hends := hstart.run hstable' hturns
  have hstore : ((gather core schedule (items.map job)).result s).2 = _ :=
    congrArg Prod.snd (result_gather core schedule (items.map job) s)
  rw [hstore]
  refine ⟨hends.may, ?_⟩
  rcases result_gather_cases core schedule (items.map job) s with
    ⟨failure, hnoted, hr⟩ | ⟨-, partials, hall, hr⟩
  · rw [hr]
    exact hends.noted failure hnoted
  · rw [hr]
    have hlength : items.length = partials.length := by
      rw [← hall.length_eq, length_groups_run, length_groups_start, List.length_map]
    refine List.forall₂_iff_get.mpr ⟨hlength, fun i hi hi' => ?_⟩
    obtain ⟨⟨progress, result⟩, hget, hresult⟩ :=
      exists_getElem?_of_forall₂ hall (List.getElem?_eq_getElem hi')
    obtain rfl : progress = .ended := ended_of_turnsOf schedule s _ _ (List.mem_of_getElem? hget)
    exact hends.groups i _ hget _ hresult _ (List.getElem?_eq_getElem hi)

/-- **Groups that end in the same way whatever they find.** -/
theorem endsOnly_gather {items : List ι} {job : ι → Process σ P} {good : ι → P → Prop}
    (hjobs : ∀ item ∈ items, (job item).EndsOnly (good item) bad) (core : String) (schedule : Schedule)
    (s : σ) :
    Meets (List.Forall₂ good items) bad ((gather core schedule (items.map job)).result s).1 := by
  obtain ⟨haccounts, hcases⟩ := gather_cases core schedule (items.map job) s
  have hran : ∀ i r, (i, r) ∈ (start s (items.map job)).executions (turnsOf schedule s (items.map job)) →
      ∃ item, items[i]? = some item ∧ Meets (good item) bad r := by
    intro i r hmem
    obtain ⟨p, hp, hleads⟩ := haccounts.ran i r hmem
    rw [List.getElem?_map, Option.map_eq_some_iff] at hp
    obtain ⟨item, hitem, rfl⟩ := hp
    exact ⟨item, hitem, (hjobs item (List.mem_of_getElem? hitem)).of_leadsTo hleads⟩
  rcases hcases with ⟨partials, hr, hlength, hruns, -⟩ | ⟨i, failure, hmem, hr⟩
  · rw [hr]
    rw [List.length_map] at hlength
    refine List.forall₂_iff_get.mpr ⟨hlength.symm, fun i hi hi' => ?_⟩
    obtain ⟨item, hitem, hgood⟩ := hran i _ ((hruns i _).mp (List.getElem?_eq_getElem hi'))
    obtain rfl := Option.some.inj ((List.getElem?_eq_getElem hi).symm.trans hitem)
    exact hgood
  · rw [hr]
    obtain ⟨item, -, hbad⟩ := hran i _ hmem
    exact hbad

/-- **Groups that take no steps** come to the same on every schedule, except for which failure is noted
if there are several. -/
theorem agrees_gather_ofExcept {items : List ι} (f : ι → Except Failure P) (core : String)
    (schedule : Schedule) (s : σ) :
    Agrees Eq ((gather core schedule (items.map fun item => Process.ofExcept (f item))).result s).1
      (items.mapM f) := by
  have hjobs : ∀ item ∈ items, (Process.ofExcept (f item) : Process σ P).EndsOnly (f item = .ok ·)
      fun failure => ∃ item ∈ items, f item = .error failure := fun item hmem =>
    Process.endsOnly_ofExcept (meets_iff.mpr ⟨fun _ h => h, fun _ h => ⟨item, hmem, h⟩⟩)
  have hmeets := endsOnly_gather hjobs core schedule s
  rcases hr : ((gather core schedule (items.map fun item => Process.ofExcept (f item))).result s).1 with
    failure | partials
  · obtain ⟨item, hmem, hfails⟩ := hmeets.of_error hr
    rcases hall : items.mapM f with failure' | others
    · exact .error failure failure'
    · obtain ⟨p, -, hp⟩ := exists_of_forall₂ (mapM_eq_ok.mp hall) hmem
      exact absurd (hfails.symm.trans hp) error_ne_ok
  · rw [mapM_eq_ok.mpr (hmeets.of_ok hr)]
    exact .ok rfl

end Gathering

end FederatedSearch
