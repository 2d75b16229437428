import FederatedSearch.Proofs.Process.Splits
import FederatedSearch.Proofs.Search.Ensured

/-!
# Gatherings side by side

If each group of a gathering is nothing but two groups side by side, then the gathering is two gatherings
side by side. On any schedule it comes to what the two come to on schedules of their own: if it succeeds
then both of them do, with the parts of its results, and if it fails then one of them fails in the same
way.

A turn of a group of the whole is some turns of its parts. When a group of the whole fails, the part that
fails with it is left as it is, about to fail, so that all other groups of the parts can follow the whole.
Only in the end is that failure made known.

## Main definitions

* `Gathering.Beside` — a gathering and its two parts, after some turns

## Main results

* `Beside.step_running`, `Beside.step` — one turn
* `Gathering.splits_gather` — the results
* `Gathering.exists_gather_shadows`, `Gathering.exists_gather_of_shadows` — groups with shadows
-/

namespace FederatedSearch

namespace Gathering

open Process

variable {ι P Q R ρ σ τ : Type} {link : ρ → σ → τ → Prop} {rel : R → P → Q → Prop}

/-- One of two groups is about to fail. -/
def Fails (failure : Failure) (x : Option (GroupState σ P)) (y : Option (GroupState τ Q)) : Prop :=
  x = some ⟨.running (.done (.error failure)), none⟩ ∨ y = some ⟨.running (.done (.error failure)), none⟩

/-- A group and its two parts. -/
def GroupBeside (link : ρ → σ → τ → Prop) (rel : R → P → Q → Prop) (failed : Bool)
    (x : Option (GroupState σ P)) (y : Option (GroupState τ Q)) : GroupState ρ R → Prop
  | ⟨.waiting job, result⟩ => result = none ∧ ∃ first second, x = some ⟨.waiting first, none⟩ ∧
      y = some ⟨.waiting second, none⟩ ∧ Splits link rel job first second
  | ⟨.running rest, result⟩ => result = none ∧ ∃ first second, x = some ⟨.running first, none⟩ ∧
      y = some ⟨.running second, none⟩ ∧ Splits link rel rest first second
  | ⟨.failing failure, result⟩ => result = none ∧ failed = true ∧ Fails failure x y
  | ⟨.ended, some z⟩ => ∃ p q, x = some ⟨.ended, some p⟩ ∧ y = some ⟨.ended, some q⟩ ∧ rel z p q
  | ⟨.ended, none⟩ => failed = true

/-- A gathering and its two parts. In the parts no failure has been made known. -/
structure Beside (link : ρ → σ → τ → Prop) (rel : R → P → Q → Prop) (g : Gathering ρ R)
    (a : Gathering σ P) (b : Gathering τ Q) : Prop where
  stores : link g.store a.store b.store
  groups : ∀ (i : Nat) group, g.groups[i]? = some group →
    GroupBeside link rel g.failed a.groups[i]? b.groups[i]? group
  noted : ∀ failure, g.firstFailure = some failure →
    ∃ i : Nat, g.groups[i]? = some ⟨.ended, none⟩ ∧ Fails failure a.groups[i]? b.groups[i]?
  lengthFirst : a.groups.length = g.groups.length
  lengthSecond : b.groups.length = g.groups.length
  calmFirst : a.failed = false ∧ a.firstFailure = none
  calmSecond : b.failed = false ∧ b.firstFailure = none

/-- Only the one group has moved, to the state `x`, and it has made no failure known. What is shared is `s`
afterwards. -/
structure Turned (i : Nat) (a a' : Gathering σ P) (s : σ) (x : Option (GroupState σ P)) : Prop where
  store : a'.store = s
  group : a'.groups[i]? = x
  others : ∀ j : Nat, j ≠ i → a'.groups[j]? = a.groups[j]?
  length : a'.groups.length = a.groups.length
  failed : a'.failed = a.failed
  firstFailure : a'.firstFailure = a.firstFailure

section Turned

variable {a : Gathering σ P} {i : Nat} {turn : GroupTurn} {result : Option P}

theorem turned_refl (i : Nat) (a : Gathering σ P) : Turned i a a a.store a.groups[i]? :=
  ⟨rfl, rfl, fun _ _ => rfl, rfl, rfl, rfl⟩

theorem turned_self {state : GroupState σ P} (hget : a.groups[i]? = some state) :
    Turned i a a a.store (some state) := hget ▸ turned_refl i a

theorem turned_set {old : GroupState σ P} (hget : a.groups[i]? = some old) (s : σ)
    (state : GroupState σ P) : Turned i a ({ a with store := s }.set i state) s (some state) where
  store := rfl
  group := getElem?_set_self (g := { a with store := s }) hget state
  others _ hne := getElem?_set_of_ne { a with store := s } hne state
  length := length_groups_set _ i state
  failed := rfl
  firstFailure := rfl

theorem turned_enter (turn : GroupTurn) {job : Process σ P}
    (hget : a.groups[turn.group]? = some ⟨.waiting job, result⟩) (hfailed : a.failed = false) :
    Turned turn.group a (a.step turn) a.store (some ⟨.running job, result⟩) := by
  rw [step_enter turn hget hfailed]
  exact turned_set hget a.store _

theorem turned_access (turn : GroupTurn) {update : Bool → σ → σ} {next : Bool → σ → Process σ P}
    (hget : a.groups[turn.group]? = some ⟨.running (.step update next), result⟩) :
    Turned turn.group a (a.step turn) (update turn.spurious a.store)
      (some ⟨.running (next turn.spurious a.store), result⟩) := by
  rw [step_access turn hget]
  exact turned_set hget _ _

theorem turned_publish (turn : GroupTurn) {p : P}
    (hget : a.groups[turn.group]? = some ⟨.running (.done (.ok p)), result⟩) :
    Turned turn.group a (a.step turn) a.store (some ⟨.ended, some p⟩) := by
  rw [step_publish turn hget]
  exact turned_set hget a.store _

end Turned

section Turn

variable {g g' : Gathering ρ R} {a a' : Gathering σ P} {b b' : Gathering τ Q} {turn : GroupTurn}

/-- A turn of a group, and what its parts do in the meantime. -/
theorem Beside.move (h : Beside link rel g a b) {i : Nat} {old state : GroupState ρ R}
    (hget : g.groups[i]? = some old) (hlive : old.progress ≠ .ended) {s : ρ} {t : σ} {u : τ}
    {x : Option (GroupState σ P)} {y : Option (GroupState τ Q)} (hg : Turned i g g' s (some state))
    (ha : Turned i a a' t x) (hb : Turned i b b' u y) (hlink : link s t u)
    (hgroup : GroupBeside link rel g.failed x y state) : Beside link rel g' a' b' where
  stores := by rwa [hg.store, ha.store, hb.store]
  groups j group hj := by
    rw [hg.failed]
    by_cases hji : j = i
    · subst hji
      obtain rfl := Option.some.inj (hg.group.symm.trans hj)
      rwa [ha.group, hb.group]
    · rw [hg.others j hji] at hj
      rw [ha.others j hji, hb.others j hji]
      exact h.groups j group hj
  noted failure hfailure := by
    rw [hg.firstFailure] at hfailure
    obtain ⟨j, hended, hfails⟩ := h.noted failure hfailure
    have hji : j ≠ i := by
      rintro rfl
      rw [Option.some.inj (hget.symm.trans hended)] at hlive
      exact hlive rfl
    refine ⟨j, ?_, ?_⟩
    · rw [hg.others j hji, hended]
    · rwa [ha.others j hji, hb.others j hji]
  lengthFirst := by rw [ha.length, hg.length, h.lengthFirst]
  lengthSecond := by rw [hb.length, hg.length, h.lengthSecond]
  calmFirst := by rw [ha.failed, ha.firstFailure]; exact h.calmFirst
  calmSecond := by rw [hb.failed, hb.firstFailure]; exact h.calmSecond

theorem GroupBeside.raise {failed : Bool} {x : Option (GroupState σ P)} {y : Option (GroupState τ Q)}
    {group : GroupState ρ R} (h : GroupBeside link rel failed x y group) :
    GroupBeside link rel true x y group := by
  rcases group with ⟨job | rest | failure | _, _ | z⟩
  all_goals first
    | exact ⟨h.1, rfl, h.2.2⟩
    | exact h
    | rfl

/-- The flag is raised. -/
theorem Beside.raise (h : Beside link rel g a b) : Beside link rel { g with failed := true } a b :=
  { h with groups := fun i group hget => (h.groups i group hget).raise }

/-- A group of the whole is about to fail, and one of its parts with it. -/
theorem Beside.step_fails (h : Beside link rel g a b) {failure : Failure}
    (hget : g.groups[turn.group]? = some ⟨.running (.done (.error failure)), none⟩)
    (hfails : Fails failure a.groups[turn.group]? b.groups[turn.group]?) :
    Beside link rel (g.step turn) a b := by
  rw [step_raise turn hget]
  exact h.raise.move hget nofun (turned_set (a := { g with failed := true }) hget g.store _)
    (turned_refl _ a) (turned_refl _ b) h.stores ⟨rfl, rfl, hfails⟩

/-- A turn of a group that is running. The parts may have to catch up first. -/
theorem Beside.step_running {p : Process ρ R} {q : Process σ P} {r : Process τ Q}
    (hsplits : Splits link rel p q r) (h : Beside link rel g a b)
    (hget : g.groups[turn.group]? = some ⟨.running p, none⟩)
    (hfirst : a.groups[turn.group]? = some ⟨.running q, none⟩)
    (hsecond : b.groups[turn.group]? = some ⟨.running r, none⟩) :
    ∃ first second, Beside link rel (g.step turn) (a.run first) (b.run second) := by
  induction hsplits generalizing a b with
  | ok hrel =>
    exact ⟨[turn], [turn], h.move hget nofun (turned_publish turn hget) (turned_publish turn hfirst)
      (turned_publish turn hsecond) h.stores ⟨_, _, rfl, rfl, hrel⟩⟩
  | failsFirst => exact ⟨[], [], h.step_fails hget (.inl hfirst)⟩
  | failsSecond => exact ⟨[], [], h.step_fails hget (.inr hsecond)⟩
  | silent hlink hnext =>
    exact ⟨[], [], h.move hget nofun (turned_access turn hget) (turned_self hfirst)
      (turned_self hsecond) (hlink _ _ _ _ h.stores) ⟨rfl, _, _, rfl, rfl, hnext _ _ _ _ h.stores⟩⟩
  | stepFirst hlink hnext =>
    exact ⟨[turn], [], h.move hget nofun (turned_access turn hget) (turned_access turn hfirst)
      (turned_self hsecond) (hlink _ _ _ _ h.stores) ⟨rfl, _, _, rfl, rfl, hnext _ _ _ _ h.stores⟩⟩
  | stepSecond hlink hnext =>
    exact ⟨[], [turn], h.move hget nofun (turned_access turn hget) (turned_self hfirst)
      (turned_access turn hsecond) (hlink _ _ _ _ h.stores)
      ⟨rfl, _, _, rfl, rfl, hnext _ _ _ _ h.stores⟩⟩
  | catchUpFirst hlink hnext ih =>
    have hturned := turned_access ⟨turn.group, false⟩ hfirst
    have hcaught : Beside link rel g (a.step ⟨turn.group, false⟩) b :=
      h.move hget nofun (turned_self hget) hturned (turned_self hsecond) (hlink _ _ _ h.stores)
        ⟨rfl, _, _, rfl, rfl, hnext _ _ _ h.stores⟩
    obtain ⟨first, second, hbeside⟩ := ih _ _ _ h.stores hcaught hget hturned.group hsecond
    exact ⟨⟨turn.group, false⟩ :: first, second, hbeside⟩
  | catchUpSecond hlink hnext ih =>
    have hturned := turned_access ⟨turn.group, false⟩ hsecond
    have hcaught : Beside link rel g a (b.step ⟨turn.group, false⟩) :=
      h.move hget nofun (turned_self hget) (turned_self hfirst) hturned (hlink _ _ _ h.stores)
        ⟨rfl, _, _, rfl, rfl, hnext _ _ _ h.stores⟩
    obtain ⟨first, second, hbeside⟩ := ih _ _ _ h.stores hcaught hget hfirst hturned.group
    exact ⟨first, ⟨turn.group, false⟩ :: second, hbeside⟩

/-- The failure of a group is made known in the whole. -/
theorem Beside.step_notes (h : Beside link rel g a b) {failure : Failure} (hfailed : g.failed = true)
    (hget : g.groups[turn.group]? = some ⟨.failing failure, none⟩)
    (hfails : Fails failure a.groups[turn.group]? b.groups[turn.group]?) :
    Beside link rel (g.step turn) a b := by
  rw [step_note hget]
  have hended : Beside link rel (g.set turn.group ⟨.ended, none⟩) a b :=
    h.move hget nofun (turned_set hget g.store _) (turned_refl _ a) (turned_refl _ b) h.stores hfailed
  refine { hended with noted := fun other hother => ?_ }
  rw [firstFailure_set] at hother
  rcases hnoted : g.firstFailure with _ | noted
  · rw [hnoted] at hother
    obtain rfl := Option.some.inj hother
    exact ⟨turn.group, getElem?_set_self hget _, hfails⟩
  · rw [hnoted] at hother
    exact hended.noted other (hnoted.trans hother)

/-- **A turn** of the whole is some turns of the parts. -/
theorem Beside.step (h : Beside link rel g a b) (turn : GroupTurn) :
    ∃ first second, Beside link rel (g.step turn) (a.run first) (b.run second) := by
  rcases hget : g.groups[turn.group]? with _ | ⟨progress, result⟩
  · rw [step_none hget]
    exact ⟨[], [], h⟩
  cases progress with
  | waiting job =>
    obtain ⟨rfl, p, q, hfirst, hsecond, hsplits⟩ := h.groups _ _ hget
    cases hfailed : g.failed with
    | true =>
      rw [step_skip hget hfailed]
      exact ⟨[], [], h.move hget nofun (turned_set hget g.store _) (turned_refl _ a) (turned_refl _ b)
        h.stores hfailed⟩
    | false =>
      exact ⟨[turn], [turn], h.move hget nofun (turned_enter turn hget hfailed)
        (turned_enter turn hfirst h.calmFirst.1) (turned_enter turn hsecond h.calmSecond.1) h.stores
        ⟨rfl, p, q, rfl, rfl, hsplits⟩⟩
  | running rest =>
    obtain ⟨rfl, p, q, hfirst, hsecond, hsplits⟩ := h.groups _ _ hget
    exact h.step_running hsplits hget hfirst hsecond
  | failing failure =>
    obtain ⟨rfl, hfailed, hfails⟩ := h.groups _ _ hget
    exact ⟨[], [], h.step_notes hfailed hget hfails⟩
  | ended =>
    rw [step_ended hget]
    exact ⟨[], [], h⟩

/-- **All turns** of the whole. -/
theorem Beside.run (h : Beside link rel g a b) (turns : Schedule) :
    ∃ first second, Beside link rel (g.run turns) (a.run first) (b.run second) := by
  induction turns generalizing g a b with
  | nil => exact ⟨[], [], h⟩
  | cons turn turns ih =>
    obtain ⟨first, second, hstep⟩ := h.step turn
    obtain ⟨more, more', hrun⟩ := ih hstep
    refine ⟨first ++ more, second ++ more', ?_⟩
    rwa [run_append, run_append]

end Turn

/-! ### The end -/

/-- A group that is about to fail can make its failure known. -/
theorem exists_error_of_running (core : String) {jobs : List (Process σ P)} {schedule : Schedule} {s : σ}
    {i : Nat} {failure : Failure} {result : Option P}
    (hget : ((start s jobs).run schedule).groups[i]? = some ⟨.running (.done (.error failure)), result⟩)
    (hfirst : ((start s jobs).run schedule).firstFailure = none) :
    ∃ schedule, ((gather core schedule jobs).result s).1 = .error failure := by
  refine ⟨schedule ++ [⟨i, false⟩, ⟨i, false⟩], ?_⟩
  have hraise := step_raise ⟨i, false⟩ hget
  have hself : (((start s jobs).run schedule).step ⟨i, false⟩).groups[i]? =
      some ⟨.failing failure, result⟩ := by
    rw [hraise]
    exact getElem?_set_self (g := { (start s jobs).run schedule with failed := true }) hget _
  have hnote : ((start s jobs).run (schedule ++ [⟨i, false⟩, ⟨i, false⟩])).firstFailure =
      some failure := by
    rw [run_append, run_cons, run_cons, step_note hself, hraise]
    show (((start s jobs).run schedule).firstFailure.or (some failure)) = some failure
    rw [hfirst]
    rfl
  rw [result_gather]
  refine outcome_eq_error core ?_
  rw [turnsOf, run_append]
  exact firstFailure_run hnote _

/-- Groups that have all ended with results, each of which belongs to one of some others. -/
theorem exists_results_of_ended (core : String) {jobs : List (Process σ P)} {schedule : Schedule} {s : σ}
    {zs : List R} (has : R → P → Prop) (hfirst : ((start s jobs).run schedule).firstFailure = none)
    (hlength : ((start s jobs).run schedule).groups.length = zs.length)
    (hends : ∀ (i : Nat) z, zs[i]? = some z → ∃ p,
      ((start s jobs).run schedule).groups[i]? = some ⟨.ended, some p⟩ ∧ has z p) :
    ∃ xs, (gather core schedule jobs).result s = (.ok xs, ((start s jobs).run schedule).store) ∧
      List.Forall₂ has zs xs := by
  have hgroup : ∀ group ∈ ((start s jobs).run schedule).groups, ∃ p, group = ⟨.ended, some p⟩ := by
    intro group hmem
    obtain ⟨i, hi, rfl⟩ := List.mem_iff_getElem.mp hmem
    obtain ⟨p, hget, -⟩ := hends i _ (List.getElem?_eq_getElem (hlength ▸ hi))
    exact ⟨p, Option.some.inj ((List.getElem?_eq_getElem hi).symm.trans hget)⟩
  obtain ⟨xs, hxs⟩ := exists_forall₂ hgroup
  refine ⟨xs, ?_, List.forall₂_iff_get.mpr ⟨hlength.symm.trans hxs.length_eq, fun i hi hi' => ?_⟩⟩
  · have hended : ∀ group ∈ ((start s jobs).run schedule).groups, group.progress = .ended := by
      intro group hmem
      obtain ⟨p, rfl⟩ := hgroup group hmem
      rfl
    rw [result_gather_of_ended core hended,
      outcome_eq_ok core hfirst (hxs.imp fun group p hp => congrArg GroupState.result hp)]
  · obtain ⟨group, hget, hx⟩ := exists_getElem?_of_forall₂ hxs (List.getElem?_eq_getElem hi')
    obtain ⟨p, hget', hp⟩ := hends i _ (List.getElem?_eq_getElem hi)
    rw [hget, hx] at hget'
    obtain ⟨-, hsame⟩ := GroupState.mk.inj (Option.some.inj hget')
    obtain rfl := Option.some.inj hsame
    exact hp

section Gather

variable {items : List ι} {whole : ι → Process ρ R} {left : ι → Process σ P} {right : ι → Process τ Q}
  {s : ρ} {t : σ} {u : τ}

theorem beside_start (hjobs : ∀ item ∈ items, Splits link rel (whole item) (left item) (right item))
    (hlink : link s t u) :
    Beside link rel (start s (items.map whole)) (start t (items.map left)) (start u (items.map right)) where
  stores := hlink
  groups i group hget := by
    rw [start, List.getElem?_map, List.getElem?_map, Option.map_map, Option.map_eq_some_iff] at hget
    obtain ⟨item, hitem, rfl⟩ := hget
    refine ⟨rfl, left item, right item, ?_, ?_, hjobs item (List.mem_of_getElem? hitem)⟩
    all_goals simp [start, hitem]
  noted := nofun
  lengthFirst := by simp [start]
  lengthSecond := by simp [start]
  calmFirst := ⟨rfl, rfl⟩
  calmSecond := ⟨rfl, rfl⟩

/-- **Gatherings side by side.** If the whole succeeds, so do its parts on schedules of their own, and each
of its results is that of its parts. If it fails, then one of its parts fails in the same way. -/
theorem splits_gather (hjobs : ∀ item ∈ items, Splits link rel (whole item) (left item) (right item))
    (hlink : link s t u) (core : String) (schedule : Schedule) :
    (∀ zs v, (gather core schedule (items.map whole)).result s = (.ok zs, v) →
      ∃ first second xs ys v₁ v₂, (gather core first (items.map left)).result t = (.ok xs, v₁) ∧
        (gather core second (items.map right)).result u = (.ok ys, v₂) ∧ link v v₁ v₂ ∧
        List.Forall₂ (fun z x => ∃ y, rel z x y) zs xs ∧ List.Forall₂ (fun z y => ∃ x, rel z x y) zs ys) ∧
      ∀ failure, ((gather core schedule (items.map whole)).result s).1 = .error failure →
        (∃ first, ((gather core first (items.map left)).result t).1 = .error failure) ∨
          ∃ second, ((gather core second (items.map right)).result u).1 = .error failure := by
  obtain ⟨first, second, hbeside⟩ :=
    (beside_start hjobs hlink).run (turnsOf schedule s (items.map whole))
  rcases result_gather_cases core schedule (items.map whole) s with
    ⟨failure, hnoted, hr⟩ | ⟨hfailed, zs, hzs, hr⟩
  · refine ⟨fun zs v hok => absurd ((congrArg Prod.fst hok).symm.trans hr) ok_ne_error,
      fun other hother => ?_⟩
    obtain rfl := Except.error.inj (hr.symm.trans hother)
    obtain ⟨i, -, hfails⟩ := hbeside.noted _ hnoted
    rcases hfails with hfails | hfails
    · exact .inl (exists_error_of_running core hfails hbeside.calmFirst.2)
    · exact .inr (exists_error_of_running core hfails hbeside.calmSecond.2)
  · refine ⟨fun zs' v hok => ?_, fun failure herror => absurd (herror.symm.trans hr) error_ne_ok⟩
    obtain rfl : zs = zs' := Except.ok.inj (hr.symm.trans (congrArg Prod.fst hok))
    have hends : ∀ (i : Nat) z, zs[i]? = some z → ∃ p q,
        ((start t (items.map left)).run first).groups[i]? = some ⟨.ended, some p⟩ ∧
        ((start u (items.map right)).run second).groups[i]? = some ⟨.ended, some q⟩ ∧ rel z p q := by
      intro i z hz
      obtain ⟨⟨progress, result⟩, hget, hresult⟩ := exists_getElem?_of_forall₂ hzs hz
      obtain rfl : progress = .ended := ended_of_turnsOf schedule s _ _ (List.mem_of_getElem? hget)
      obtain rfl : result = some z := hresult
      exact hbeside.groups i _ hget
    have hlength := hzs.length_eq
    obtain ⟨xs, hxs, hleft⟩ := exists_results_of_ended core (fun z x => ∃ y, rel z x y)
      hbeside.calmFirst.2 (hbeside.lengthFirst.trans hlength) fun i z hz => by
        obtain ⟨p, q, hp, -, hrel⟩ := hends i z hz
        exact ⟨p, hp, q, hrel⟩
    obtain ⟨ys, hys, hright⟩ := exists_results_of_ended core (fun z y => ∃ x, rel z x y)
      hbeside.calmSecond.2 (hbeside.lengthSecond.trans hlength) fun i z hz => by
        obtain ⟨p, q, -, hq, hrel⟩ := hends i z hz
        exact ⟨q, hq, p, hrel⟩
    have hstore : v = _ := (congrArg Prod.snd hok).symm.trans
      (congrArg Prod.snd (result_gather core schedule (items.map whole) s))
    exact ⟨first, second, xs, ys, _, _, hxs, hys, hstore ▸ hbeside.stores, hleft, hright⟩

end Gather

/-! ### A single part -/

section Part

variable {items : List ι} {link : ρ → σ → Prop} {whole : ι → Process ρ P} {part : ι → Process σ P}
  {s : ρ} {t : σ}

/-- A gathering with just one part comes to what that part comes to on a schedule of its own. -/
theorem exists_gather_part
    (hjobs : ∀ item ∈ items, Splits (fun s t (_ : Unit) => link s t) (fun z x _ => z = x)
      (whole item) (part item) (pure ()))
    (hlink : link s t) (core : String) (schedule : Schedule) :
    ∃ schedule', ((gather core schedule (items.map whole)).result s).1 =
        ((gather core schedule' (items.map part)).result t).1 ∧
      ∀ xs, ((gather core schedule (items.map whole)).result s).1 = .ok xs →
        link ((gather core schedule (items.map whole)).result s).2
          ((gather core schedule' (items.map part)).result t).2 := by
  obtain ⟨hok, herror⟩ := splits_gather (u := ()) hjobs hlink core schedule
  rcases hr : (gather core schedule (items.map whole)).result s with ⟨failure | zs, v⟩
  · rcases herror failure (congrArg Prod.fst hr) with ⟨schedule', hfirst⟩ | ⟨schedule', hsecond⟩
    · exact ⟨schedule', hfirst.symm, nofun⟩
    · have hnothing : ∀ item ∈ items, (pure () : Process Unit Unit).EndsOnly (fun _ => True)
          fun _ => False := fun _ _ => endsOnly_pure trivial
      exact ((endsOnly_gather hnothing core schedule' ()).of_error hsecond).elim
  · obtain ⟨schedule', -, xs, -, v₁, -, hfirst, -, hstore, hall, -⟩ := hok zs v hr
    have hsame : zs = xs := by
      rw [← List.forall₂_eq_eq_eq]
      exact hall.imp fun z x hzx => hzx.elim fun _ h => h
    refine ⟨schedule', ?_⟩
    rw [hfirst, hsame]
    exact ⟨rfl, fun _ _ => hstore⟩

variable {link : σ → τ → Prop} {p : ι → Process σ P} {q : ι → Process τ P} {s : σ} {t : τ}
  (hjobs : ∀ item ∈ items, Shadows link Eq (p item) (q item)) (hlink : link s t) (core : String)
  (schedule : Schedule)
include hjobs hlink

/-- **Groups with shadows.** Their shadows come to the same on a schedule of their own. -/
theorem exists_gather_shadows :
    ∃ schedule', ((gather core schedule (items.map p)).result s).1 =
        ((gather core schedule' (items.map q)).result t).1 ∧
      ∀ xs, ((gather core schedule (items.map p)).result s).1 = .ok xs →
        link ((gather core schedule (items.map p)).result s).2
          ((gather core schedule' (items.map q)).result t).2 :=
  exists_gather_part (fun item hmem => (hjobs item hmem).splits) hlink core schedule

/-- What the shadows come to, the groups come to on some schedule. -/
theorem exists_gather_of_shadows :
    ∃ schedule', ((gather core schedule (items.map q)).result t).1 =
        ((gather core schedule' (items.map p)).result s).1 ∧
      ∀ xs, ((gather core schedule (items.map q)).result t).1 = .ok xs →
        link ((gather core schedule' (items.map p)).result s).2
          ((gather core schedule (items.map q)).result t).2 := by
  have hback : ∀ item ∈ items, Splits (fun t s (_ : Unit) => link s t) (fun z x _ => z = x) (q item)
      (p item) (pure ()) := fun item hmem => (hjobs item hmem).splits_back.mono fun _ _ _ h => h.symm
  exact exists_gather_part hback hlink core schedule

end Part

end Gathering

end FederatedSearch
