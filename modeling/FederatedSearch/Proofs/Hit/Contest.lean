import FederatedSearch.Proofs.Hit.BestPerKey

/-!
# Offers that contend for a record

Groups that run at the same time raise the records by turns, and between the moment in which one of
them reads a record and the moment in which it tries to exchange it, the others may have raised it any
number of times. `Raising` says what a single update does next, whatever it finds. Here any number of
offers are under way on the same records, and they take their steps in any order whatsoever:

* the key of the offer gets a record, if it has none;
* the offer loads the record;
* it tries to exchange the record, as often as that fails and the budget allows. An exchange fails if
  the record is no longer the one last seen, and it may fail without a reason.

That a group makes its offers one after the other is not required: it is one of the orders in which the
offers of all groups may take their steps. An offer keeps an account of what it met with.

This is what the groups of a search do: an offer under way is a process, of which something is left, and
its steps are the steps of `BestPerKey.contend`. An offer that nobody interferes with and whose exchanges do
not fail without a reason is the update of `BestPerKey.offer`.

## Implementation notes

There is one memory, and each access to it is a step of its own, so a load finds the record as it is. Loads
that may find an older record are not considered. That offers come to an end is not promised either: an
offer may get no more turns.

## Main definitions

* `Offering` — an offer under way; `Offering.step` is its next step
* `Offering.left` — what is left of an offer, as a process
* `Contest` — offers on the same records; `Contest.step`, `Contest.run`

## Main results

* `Offering.moves_step` — all that a step can be
* `Offering.left_step` — the steps are those of a process
* `Contest.run_undisturbed` — an offer that nobody interferes with
-/

namespace FederatedSearch

/-! ### One offer -/

/-- What an offer met with when it looked at the record of its key. -/
inductive Access where
  | loaded (found : PackedHit)
  /-- An exchange that failed. -/
  | refused (found : PackedHit)
  | exchanged (found : PackedHit)
deriving DecidableEq, Repr

namespace Access

/-- The record that was found. -/
def found : Access → PackedHit
  | loaded found | refused found | exchanged found => found

def isExchange : Access → Bool
  | loaded _ => false
  | refused _ | exchanged _ => true

def isRefused : Access → Bool
  | loaded _ | exchanged _ => false
  | refused _ => true

end Access

/-- How far an offer has got. -/
inductive Offering.Progress where
  | waiting
  /-- The key has a record. -/
  | entered
  | raising (r : Raising)
  | ended (outcome : Except Failure Unit)
deriving DecidableEq, Repr

/-- An offer under way. -/
structure Offering where
  key : JoinKey
  hit : Hit
  progress : Offering.Progress := .waiting
  /-- What the offer met with so far, in order. -/
  accesses : List Access := []

namespace Offering

/-- How many exchanges were tried. -/
def exchanges (o : Offering) : Nat := o.accesses.countP Access.isExchange

/-- How many exchanges failed. -/
def refusals (o : Offering) : Nat := o.accesses.countP Access.isRefused

/-- The record as it was last seen. -/
def lastFound? (o : Offering) : Option PackedHit := o.accesses.getLast?.map Access.found

/-- The offer, after one more access. -/
def meet (o : Offering) (access : Access) (progress : Progress) : Offering :=
  { o with progress, accesses := o.accesses ++ [access] }

/-- The next step of an offer, which may be an exchange that fails without a reason. -/
def step (o : Offering) (spurious : Bool) (b : BestPerKey) : Offering × BestPerKey :=
  let record := b.held o.key
  match o.progress with
  | .waiting =>
    ({ o with progress := .entered }, { b with records := BestPerKey.setRecord o.key record b.records })
  | .entered => (o.meet (.loaded record) (.raising (.start o.hit.pack record b.budget)), b)
  | .raising r =>
    match r.next with
    | .done => ({ o with progress := .ended (.ok ()) }, b)
    | .giveUp failure => ({ o with progress := .ended (.error failure) }, b)
    | .exchange =>
      if record = r.seen ∧ spurious = false then
        (o.meet (.exchanged record) (.ended (.ok ())),
          { b with records := BestPerKey.setRecord o.key r.target b.records })
      else (o.meet (.refused record) (.raising (r.refused record)), b)
  | .ended _ => (o, b)

end Offering

/-! ### All offers -/

/-- A step of an offer, with the number of the offer. -/
structure Turn where
  offer : Nat
  /-- An exchange fails even if the record is the one last seen. -/
  spurious : Bool := false
deriving DecidableEq, Repr

/-- Offers under way, and the records they contend for. -/
structure Contest where
  best : BestPerKey
  offers : List Offering

namespace Contest

/-- No offer has begun, and there are no records. -/
def start (budget : Nat) (offered : List (JoinKey × Hit)) : Contest :=
  ⟨.empty budget, offered.map fun e => { key := e.1, hit := e.2 }⟩

/-- A step of one of the offers, if there is such an offer. -/
def step (c : Contest) (turn : Turn) : Contest :=
  match c.offers[turn.offer]? with
  | none => c
  | some o =>
    let (o', best) := o.step turn.spurious c.best
    { best, offers := c.offers.set turn.offer o' }

/-- Steps of the offers, in order. -/
def run (c : Contest) (turns : List Turn) : Contest := turns.foldl step c

end Contest

/-! ### What a step can be -/

namespace Offering

/-- All that a step of an offer can be. -/
inductive Moves (o : Offering) (b : BestPerKey) : Offering → BestPerKey → Prop
  | enter (h : o.progress = .waiting) : Moves o b { o with progress := .entered }
      { b with records := BestPerKey.setRecord o.key (b.held o.key) b.records }
  | load (h : o.progress = .entered) : Moves o b
      (o.meet (.loaded (b.held o.key)) (.raising (.start o.hit.pack (b.held o.key) b.budget))) b
  | finish {r : Raising} (h : o.progress = .raising r) (hseen : r.target.word ≤ r.seen.word) :
      Moves o b { o with progress := .ended (.ok ()) } b
  | giveUp {r : Raising} (h : o.progress = .raising r) (hseen : r.seen.word < r.target.word)
      (hleft : r.left = 0) :
      Moves o b { o with progress := .ended (.error (.retryBudgetExceeded r.budget)) } b
  | exchange {r : Raising} (h : o.progress = .raising r) (hseen : r.seen.word < r.target.word)
      (hleft : 0 < r.left) (hheld : b.held o.key = r.seen) :
      Moves o b (o.meet (.exchanged (b.held o.key)) (.ended (.ok ())))
        { b with records := BestPerKey.setRecord o.key r.target b.records }
  | refuse {r : Raising} (h : o.progress = .raising r) (hseen : r.seen.word < r.target.word)
      (hleft : 0 < r.left) :
      Moves o b (o.meet (.refused (b.held o.key)) (.raising (r.refused (b.held o.key)))) b
  | rest {outcome : Except Failure Unit} (h : o.progress = .ended outcome) : Moves o b o b

/-- **A step** is one of these. -/
theorem moves_step (o : Offering) (spurious : Bool) (b : BestPerKey) :
    o.Moves b (o.step spurious b).1 (o.step spurious b).2 := by
  rw [step]
  cases hprogress : o.progress with
  | waiting => exact .enter hprogress
  | entered => exact .load hprogress
  | ended outcome => exact .rest hprogress
  | raising r =>
    rcases r.next_cases with ⟨hnext, hseen⟩ | ⟨hnext, hlt, hleft⟩ | ⟨hnext, hlt, hleft⟩ <;> simp only [hnext]
    · exact .finish hprogress hseen
    · exact .giveUp hprogress hlt hleft
    · split
      · rename_i hheld
        exact .exchange hprogress hlt hleft hheld.1
      · exact .refuse hprogress hlt hleft

end Offering

/-! ### Offers are processes -/

namespace Offering

/-- What is left of an offer. -/
def left (o : Offering) : Process BestPerKey Unit :=
  match o.progress with
  | .waiting => BestPerKey.contend o.key o.hit
  | .entered => do
    let r ← Process.update fun b => (Raising.start o.hit.pack (b.held o.key) b.budget, b)
    BestPerKey.attempts o.key r.left r
  | .raising r => BestPerKey.attempts o.key r.left r
  | .ended outcome => .ofExcept outcome

/-- **A step of an offer** is a step of what is left of it, or the offer only notes that it has ended. -/
theorem left_step (o : Offering) (spurious : Bool) (b : BestPerKey) :
    ((o.step spurious b).1.left = o.left ∧ (o.step spurious b).2 = b) ∨
    ∃ update next, o.left = .step update next ∧ update spurious b = (o.step spurious b).2 ∧
      next spurious b = (o.step spurious b).1.left := by
  rcases o with ⟨key, hit, progress, accesses⟩
  cases progress with
  | waiting => exact .inr ⟨_, _, rfl, rfl, rfl⟩
  | entered => exact .inr ⟨_, _, rfl, rfl, rfl⟩
  | ended outcome => exact .inl ⟨rfl, rfl⟩
  | raising r =>
    simp only [step, left]
    rcases r.next_cases with ⟨hnext, -⟩ | ⟨hnext, -, -⟩ | ⟨hnext, -, hpos⟩ <;> simp only [hnext]
    · exact .inl ⟨(BestPerKey.attempts_of_done hnext).symm, trivial⟩
    · exact .inl ⟨(BestPerKey.attempts_of_giveUp hnext).symm, trivial⟩
    · obtain ⟨more, hleft⟩ : ∃ more, r.left = more + 1 := Nat.exists_eq_add_one.mpr hpos
      refine .inr ⟨_, _, by rw [hleft]; exact BestPerKey.attempts_of_exchange hnext, ?_⟩
      simp only [BestPerKey.exchange]
      by_cases hheld : b.held key = r.seen ∧ spurious = false
      · simp only [if_pos hheld]
        exact ⟨trivial, rfl⟩
      · simp only [if_neg hheld]
        refine ⟨trivial, ?_⟩
        show BestPerKey.attempts key more (r.refused (b.held key)) =
          BestPerKey.attempts key (r.left - 1) (r.refused (b.held key))
        rw [hleft, Nat.add_sub_cancel]

/-- A step that nobody interferes with takes nothing away from what is left. -/
theorem result_left_step (o : Offering) (b : BestPerKey) :
    (o.step false b).1.left.alone.result (o.step false b).2 = o.left.alone.result b := by
  rcases o.left_step false b with ⟨hleft, hbest⟩ | ⟨update, next, hleft, hupdate, hnext⟩
  · rw [hleft, hbest]
  · rw [hleft, Process.result_alone_step, hupdate, hnext]

/-- An offer ends with its next step if the record is the one that was last seen. -/
theorem ended_of_seen {o : Offering} {r : Raising} (h : o.progress = .raising r) {b : BestPerKey}
    (hheld : b.held o.key = r.seen) : ∃ outcome, (o.step false b).1.progress = .ended outcome := by
  rw [step, h]
  cases hnext : r.next with
  | done => simp only [hnext]; exact ⟨_, rfl⟩
  | giveUp failure => simp only [hnext]; exact ⟨_, rfl⟩
  | exchange => simp only [hnext, hheld, true_and, if_true]; exact ⟨_, rfl⟩

/-- Three steps are an update that nobody interferes with. -/
theorem step_undisturbed {o : Offering} (h : o.progress = .waiting) (b : BestPerKey) :
    let entered := o.step false b
    let loaded := entered.1.step false entered.2
    let ended := loaded.1.step false loaded.2
    ended.1.progress = .ended (b.offer o.key o.hit).1 ∧ ended.2 = (b.offer o.key o.hit).2 := by
  intro entered loaded ended
  have hentered : entered.1.progress = .entered := by simp only [entered, step, h]
  have hloaded : loaded = (entered.1.meet (.loaded (entered.2.held entered.1.key))
      (.raising (.start entered.1.hit.pack (entered.2.held entered.1.key) entered.2.budget)), entered.2) := by
    simp only [loaded, step, hentered]
  obtain ⟨outcome, houtcome⟩ : ∃ outcome, ended.1.progress = .ended outcome := by
    simp only [ended, hloaded]
    exact ended_of_seen rfl rfl
  have hoffer : o.left.alone.result b = b.offer o.key o.hit := by
    rw [left, h]
    rfl
  have hended : ended.1.left.alone.result ended.2 = (outcome, ended.2) := by
    rw [left, houtcome]
    rfl
  rw [result_left_step, result_left_step, result_left_step, hoffer] at hended
  rw [hended]
  exact ⟨houtcome, rfl⟩

end Offering

namespace Contest

variable {c : Contest} {i : Nat} {o : Offering}

theorem step_of_getElem? (ho : c.offers[i]? = some o) (spurious : Bool) :
    c.step ⟨i, spurious⟩ = ⟨(o.step spurious c.best).2, c.offers.set i (o.step spurious c.best).1⟩ := by
  simp only [step, ho]

/-- The offer whose turn it is takes its step. -/
theorem step_own (ho : c.offers[i]? = some o) (spurious : Bool) :
    (c.step ⟨i, spurious⟩).best = (o.step spurious c.best).2 ∧
      (c.step ⟨i, spurious⟩).offers[i]? = some (o.step spurious c.best).1 := by
  rw [step_of_getElem? ho]
  exact ⟨rfl, List.getElem?_set_self (List.getElem?_eq_some_iff.mp ho).1⟩

/-- **An offer that nobody interferes with** is an update in one step. -/
theorem run_undisturbed (ho : c.offers[i]? = some o) (h : o.progress = .waiting) :
    let ended := c.run [⟨i, false⟩, ⟨i, false⟩, ⟨i, false⟩]
    ended.best = (c.best.offer o.key o.hit).2 ∧
      (ended.offers[i]?).map (·.progress) = some (.ended (c.best.offer o.key o.hit).1) := by
  obtain ⟨hprogress, hbest⟩ := Offering.step_undisturbed h c.best
  obtain ⟨hbest₁, ho₁⟩ := step_own ho false
  obtain ⟨hbest₂, ho₂⟩ := step_own ho₁ false
  obtain ⟨hbest₃, ho₃⟩ := step_own ho₂ false
  rw [hbest₁] at hbest₂ ho₂
  rw [hbest₂, hbest₁] at hbest₃ ho₃
  refine ⟨hbest₃.trans hbest, ?_⟩
  exact (congrArg _ ho₃).trans (congrArg some hprogress)

end Contest

end FederatedSearch
