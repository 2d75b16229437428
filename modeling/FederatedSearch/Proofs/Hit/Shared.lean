import FederatedSearch.Proofs.Hit.Contended
import FederatedSearch.Proofs.Process.Ensures

/-!
# Offers among others

While a group offers a hit, other groups offer theirs, and any of them may raise the record between two
steps of the offer. All that the offer can rely on is that records grow, and that they are made of hits
that are offered.

This is enough. An offer that succeeds has seen to it that the record is as good as its hit, and the record
stays so. An exchange that does not fail without a reason fails because the record has grown to another hit
offered for the key. So an offer that fails for no other reason has seen the record at as many hits as its
budget allows exchanges, all of them worse than its own.

## Main definitions

* `BestPerKey.sharing` — what other groups may do
* `BestPerKey.Crowded` — more hits for one key than the budget allows exchanges
* `BestPerKey.GivesUp` — how an offer may fail

## Main results

* `BestPerKey.ensures_exchange` — a single exchange
* `BestPerKey.ensures_attempts`, `BestPerKey.ensures_contend` — what an offer ensures
-/

namespace FederatedSearch

namespace BestPerKey

variable {offered : List (JoinKey × Hit)} {key : JoinKey} {hit : Hit} {b : BestPerKey}

/-! ### Records are made of offers -/

theorem From.setRecord (h : b.From offered) (hmem : (key, hit) ∈ offered) {record : PackedHit}
    (horigin : record = .none ∨ ∃ hit, (key, hit) ∈ offered ∧ hit.pack = record) :
    From offered { b with records := BestPerKey.setRecord key record b.records } where
  nodup := nodup_setRecord key record h.nodup
  recorded other hother := by
    rw [record?_setRecord] at hother
    split at hother
    · rename_i heq
      exact ⟨hit, heq ▸ hmem⟩
    · exact h.recorded other hother
  origin other := by
    rw [held_setRecord]
    split
    · rename_i heq
      exact heq ▸ horigin
    · exact h.origin other

theorem from_empty (offered : List (JoinKey × Hit)) (budget : Nat) : (empty budget).From offered :=
  ⟨List.nodup_nil, nofun, fun _ => .inl rfl⟩

/-- What the groups of a search may do to the records. -/
def sharing (offered : List (JoinKey × Hit)) (spurious : Prop) : Regime BestPerKey where
  may b b' := b.Grows b' ∧ (b.From offered → b'.From offered)
  refl b := ⟨.refl b, id⟩
  trans h h' := ⟨h.1.trans h'.1, h'.2 ∘ h.2⟩
  spurious := spurious

/-! ### How an offer may fail -/

/-- More hits are offered for some key than an update may try exchanges. -/
def Crowded (offered : List (JoinKey × Hit)) (budget : Nat) : Prop :=
  ∃ key, budget < (hitsOf offered key).length

/-- The budget is used up, as exchanges failed without a reason or since there are many hits. -/
structure GivesUp (offered : List (JoinKey × Hit)) (spurious : Prop) (budget : Nat) (failure : Failure) :
    Prop where
  failure_eq : failure = .retryBudgetExceeded budget
  reason : spurious ∨ Crowded offered budget

/-- How many of the hits offered for a key a record is as good as. -/
def passed (offered : List (JoinKey × Hit)) (key : JoinKey) (record : PackedHit) : Nat :=
  (hitsOf offered key).countP fun hit => decide (hit.pack.word ≤ record.word)

/-- A record that has grown has passed another hit. -/
theorem From.passed_lt (h : b.From offered) {seen : PackedHit} (hlt : seen.word < (b.held key).word) :
    passed offered key seen < passed offered key (b.held key) := by
  obtain ⟨hit, hmem, hpack⟩ := (h.origin key).resolve_left fun hnone => by
    rw [hnone] at hlt
    exact absurd hlt (UInt64.not_lt.mpr UInt64.zero_le)
  obtain ⟨before, after, heq⟩ := List.append_of_mem (mem_hitsOf.mpr hmem)
  have hmono : ∀ hits : List Hit, hits.countP (fun hit => decide (hit.pack.word ≤ seen.word)) ≤
      hits.countP fun hit => decide (hit.pack.word ≤ (b.held key).word) := fun hits =>
    List.countP_mono_left fun other _ hother => decide_eq_true
      (UInt64.le_trans (of_decide_eq_true hother) (UInt64.le_of_lt hlt))
  have hbefore := hmono before
  have hafter := hmono after
  have hnew : ¬ hit.pack.word ≤ seen.word := UInt64.not_le.mpr (hpack ▸ hlt)
  have hold : hit.pack.word ≤ (b.held key).word := hpack ▸ UInt64.le_refl _
  simp only [passed, heq, List.countP_append, List.countP_cons, hnew, hold, decide_true, decide_false,
    if_true, Bool.false_eq_true, if_false]
  omega

/-- A record that is worse than a hit has not passed that. -/
theorem passed_lt_length (hmem : (key, hit) ∈ offered) {seen : PackedHit}
    (hlt : seen.word < hit.pack.word) : passed offered key seen < (hitsOf offered key).length := by
  refine Nat.lt_of_le_of_ne List.countP_le_length fun hall => ?_
  have hpassed := List.countP_eq_length.mp hall hit (mem_hitsOf.mpr hmem)
  exact absurd (of_decide_eq_true hpassed) (UInt64.not_le.mpr hlt)

/-! ### What an offer ensures -/

section Ensures

variable {spurious : Prop} (hmem : (key, hit) ∈ offered)
include hmem

/-- **An exchange.** The record is the hit afterwards, or it was found to have passed another hit since it
was last seen, unless the exchange failed without a reason. -/
theorem ensures_exchange {bad : Failure → Prop} {r : Raising} (htarget : r.target = hit.pack)
    (hlt : r.seen.word < r.target.word) (hfrom : b.From offered)
    (hseen : r.seen.word ≤ (b.held key).word) :
    (Process.weakUpdate (exchange key r)).Ensures (sharing offered spurious)
      (fun found? t => b.Grows t ∧ t.From offered ∧ found?.elim
        ((t.record? key).isSome = true ∧ hit.pack.word ≤ (t.held key).word) fun found =>
          found.word ≤ (t.held key).word ∧
            (¬ spurious → passed offered key r.seen < passed offered key found)) bad b := by
  refine Process.ensures_weakUpdate fun t flag ht hflag => ?_
  by_cases hsame : t.held key = r.seen ∧ flag = false
  · have hgrows : t.Grows { t with records := BestPerKey.setRecord key r.target t.records } :=
      grows_setRecord (hsame.1 ▸ UInt64.le_of_lt hlt)
    have hkept : t.From offered → From offered { t with records := setRecord key r.target t.records } :=
      fun htfrom => htfrom.setRecord hmem (.inr ⟨hit, hmem, htarget.symm⟩)
    rw [exchange, if_pos hsame]
    refine ⟨⟨hgrows, hkept⟩, ht.1.trans hgrows, hkept (ht.2 hfrom), t.isSome_setRecord key _, ?_⟩
    rw [held_setRecord, if_pos rfl, htarget]
    exact UInt64.le_refl _
  · rw [exchange, if_neg hsame]
    refine ⟨(sharing offered spurious).refl t, ht.1, ht.2 hfrom, UInt64.le_refl _, fun hspurious =>
      (ht.2 hfrom).passed_lt (UInt64.lt_of_le_of_ne (UInt64.le_trans hseen (ht.1.held_le key)) fun heq =>
        hsame ⟨congrArg PackedHit.mk heq.symm, ?_⟩)⟩
    exact Bool.eq_false_iff.mpr fun hset => hspurious (hflag hset)

/-- **An update that goes on.** The exchanges that it has tried failed for records of different hits, unless
they failed without a reason. -/
theorem ensures_attempts {left : Nat} {r : Raising} (htarget : r.target = hit.pack)
    (hleft : r.left = left) (hfrom : b.From offered) (hrecorded : (b.record? key).isSome = true)
    (hseen : r.seen.word ≤ (b.held key).word)
    (htried : ¬ spurious → r.budget ≤ left + passed offered key r.seen) :
    (attempts key left r).Ensures (sharing offered spurious)
      (fun _ b => (b.record? key).isSome = true ∧ hit.pack.word ≤ (b.held key).word)
      (GivesUp offered spurious r.budget) b := by
  induction left generalizing r b with
  | zero =>
    rcases r.next_cases with ⟨hnext, hdone⟩ | ⟨hnext, hlt, -⟩ | ⟨-, -, hpos⟩
    · rw [attempts_of_done hnext]
      exact ⟨hrecorded, UInt64.le_trans (htarget ▸ hdone) hseen⟩
    · rw [attempts_of_giveUp hnext]
      refine ⟨rfl, or_iff_not_imp_left.mpr fun hspurious => ⟨key, ?_⟩⟩
      have hpassed := passed_lt_length hmem (htarget ▸ hlt)
      have hbudget := htried hspurious
      omega
    · omega
  | succ left ih =>
    rcases r.next_cases with ⟨hnext, hdone⟩ | ⟨-, -, hzero⟩ | ⟨hnext, hlt, -⟩
    · rw [attempts_of_done hnext]
      exact ⟨hrecorded, UInt64.le_trans (htarget ▸ hdone) hseen⟩
    · omega
    · rw [attempts_of_exchange hnext]
      refine (ensures_exchange hmem htarget hlt hfrom hseen).bind ?_
      rintro (_ | found) t - ⟨hgrows, htfrom, hfound⟩
      · exact hfound
      · have hless : (r.refused found).left = left := by rw [Raising.refused, hleft, Nat.add_sub_cancel]
        refine ih (r := r.refused found) htarget hless htfrom (hgrows.kept key hrecorded) hfound.1
          fun hspurious => ?_
        have hbudget := htried hspurious
        have hpassed := hfound.2 hspurious
        show r.budget ≤ left + passed offered key found
        omega

/-- **An offer** sees to it that the record of its key is as good as its hit, or it uses up its budget. -/
theorem ensures_contend (hfrom : b.From offered) :
    (contend key hit).Ensures (sharing offered spurious)
      (fun _ b => (b.record? key).isSome = true ∧ hit.pack.word ≤ (b.held key).word)
      (GivesUp offered spurious b.budget) b := by
  have henter : (Process.update fun b => ((), b.enter key)).Ensures (sharing offered spurious)
      (fun _ t => b.Grows t ∧ t.From offered ∧ (t.record? key).isSome = true)
      (GivesUp offered spurious b.budget) b := by
    refine Process.ensures_update fun t ht => ?_
    have hgrows : t.Grows (t.enter key) := grows_setRecord (UInt64.le_refl _)
    have hkept : t.From offered → (t.enter key).From offered :=
      fun htfrom => htfrom.setRecord hmem (htfrom.origin key)
    exact ⟨⟨hgrows, hkept⟩, ht.1.trans hgrows, hkept (ht.2 hfrom), t.isSome_setRecord key _⟩
  refine henter.bind fun _ t _ ⟨hbt, htfrom, hrecorded⟩ => ?_
  have hload : (Process.update fun t => (Raising.start hit.pack (t.held key) t.budget, t)).Ensures
      (sharing offered spurious) (fun r u => b.Grows u ∧ u.From offered ∧
        (u.record? key).isSome = true ∧ r.target = hit.pack ∧ r.left = r.budget ∧ r.budget = b.budget ∧
          r.seen.word ≤ (u.held key).word)
      (GivesUp offered spurious b.budget) t := by
    refine Process.ensures_update fun u hu => ⟨(sharing offered spurious).refl u, hbt.trans hu.1,
      hu.2 htfrom, hu.1.kept key hrecorded, rfl, rfl, (hbt.trans hu.1).budget_eq, UInt64.le_refl _⟩
  refine hload.bind fun r u _ ⟨_, hufrom, hrecorded, htarget, hleft, hbudget, hseen⟩ => ?_
  rw [← hbudget]
  exact ensures_attempts hmem htarget rfl hufrom hrecorded hseen fun _ => hleft ▸ Nat.le_add_right _ _

end Ensures

end BestPerKey

end FederatedSearch
