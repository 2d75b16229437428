import FederatedSearch.Proofs.Hit.Contended

/-!
# Offers that fail

An offer sees to it that its key has a record before it looks whether it may raise one, and it does not
take the record back when its budget is used up. If the key had a record already, nothing has changed.
If it had none, it has the record of a key without hits from then on. That is a record like any other:
it counts, and it unpacks to a hit that nobody offered, with the greatest number and a score that is not
a number.

This is so whether exchanges fail without a reason or there is no exchange to be tried, and it is all
that an offer leaves that fails. So a record is the hit of an offer that has ended well, or no offer for
its key has.

## Main definitions

* `BestPerKey.Remains` — what remains of an offer that failed
* `Offering.Reaches` — the records, while an offer takes steps alone

## Main results

* `BestPerKey.remains_enter`, `BestPerKey.offer_of_error` — an offer in one step
* `Offering.Moves.reaches`, `Contest.run_alone` — an offer in single steps
* `Contest.Sound.mem_records` — what the records are
* `Contest.failed_offer_remains` — all of this, after any history
-/

namespace FederatedSearch

/-- The record of a key without hits unpacks to the last hit in relevance order. -/
theorem PackedHit.unpack_none : none.unpack = ⟨maxPackedDoc, ⟨0xffffffff⟩⟩ := by decide

/-! ### A record for a key -/

namespace BestPerKey

theorem setRecord_of_lookup {key : JoinKey} {record : PackedHit} {records : List (JoinKey × PackedHit)}
    (h : records.lookup key = some record) : setRecord key record records = records := by
  induction records with
  | nil => exact nomatch h
  | cons r rest ih =>
    rw [lookup_cons_eq] at h
    rw [setRecord]
    by_cases hfirst : r.1 = key
    · rw [if_pos hfirst.symm, Option.some.injEq] at h
      rw [if_pos hfirst, ← hfirst, ← h]
    · rw [if_neg (Ne.symm hfirst)] at h
      rw [if_neg hfirst, ih h]

theorem setRecord_of_lookup_eq_none {key : JoinKey} {record : PackedHit}
    {records : List (JoinKey × PackedHit)} (h : records.lookup key = none) :
    setRecord key record records = records ++ [(key, record)] := by
  induction records with
  | nil => rfl
  | cons r rest ih =>
    rw [lookup_cons_eq] at h
    by_cases hfirst : r.1 = key
    · rw [if_pos hfirst.symm] at h
      exact nomatch h
    · rw [if_neg (Ne.symm hfirst)] at h
      rw [setRecord, if_neg hfirst, ih h, List.cons_append]

theorem enter_of_record? {b : BestPerKey} {key : JoinKey} {record : PackedHit}
    (h : b.record? key = some record) : b.enter key = b := by
  have hheld : b.held key = record := by rw [held, h, Option.getD_some]
  rw [enter, hheld, setRecord_of_lookup h]

theorem records_enter_of_eq_none {b : BestPerKey} {key : JoinKey} (h : b.record? key = none) :
    (b.enter key).records = b.records ++ [(key, .none)] := by
  have hheld : b.held key = .none := by rw [held, h, Option.getD_none]
  rw [enter, hheld]
  exact setRecord_of_lookup_eq_none h

/-- What remains of an offer for a key that failed: nothing if the key had a record, and otherwise one
record more, and with it a hit. -/
structure Remains (b : BestPerKey) (key : JoinKey) (b' : BestPerKey) : Prop where
  eq_of_recorded : (b.record? key).isSome = true → b' = b
  size_of_new : b.record? key = none → b'.size = b.size + 1
  isEmpty_of_new : b.record? key = none → b'.isEmpty = false
  hits_of_new : b.record? key = none → b'.hits = b.hits ++ [⟨maxPackedDoc, ⟨0xffffffff⟩⟩]

theorem remains_enter (b : BestPerKey) (key : JoinKey) : b.Remains key (b.enter key) where
  eq_of_recorded h := by
    obtain ⟨record, hrecord⟩ := Option.isSome_iff_exists.mp h
    exact enter_of_record? hrecord
  size_of_new h := by
    rw [size, records_enter_of_eq_none h, List.length_append]
    rfl
  isEmpty_of_new h := by
    rw [isEmpty, records_enter_of_eq_none h, List.isEmpty_eq_false_iff]
    exact List.append_ne_nil_of_right_ne_nil _ (List.cons_ne_nil _ _)
  hits_of_new h := by
    rw [hits, records_enter_of_eq_none h, List.map_append, List.map_singleton, PackedHit.unpack_none]
    rfl

/-- **An offer that fails** in one step has used up its budget, and its key has a record. -/
theorem offer_of_error {b : BestPerKey} {key : JoinKey} {hit : Hit} {failure : Failure}
    (h : (b.offer key hit).1 = .error failure) :
    failure = .retryBudgetExceeded b.budget ∧ (b.offer key hit).2 = b.enter key := by
  by_cases hle : hit.pack.word ≤ (b.held key).word
  · rw [offer_of_le hle] at h
    exact absurd h ok_ne_error
  · by_cases hbudget : b.budget = 0
    · rw [offer_of_budget_eq_zero hle hbudget] at h ⊢
      exact ⟨(Except.error.inj h).symm, rfl⟩
    · rw [offer_of_lt hle hbudget] at h
      exact absurd h ok_ne_error

end BestPerKey

/-! ### An offer that takes steps alone -/

namespace Offering

/-- The records that an offer has reached with steps of its own, from those that it found. Of an offer
that has ended well nothing is said. -/
def Reaches (found : BestPerKey) (o : Offering) (b : BestPerKey) : Prop :=
  match o.progress with
  | .waiting => b = found
  | .entered | .raising _ | .ended (.error _) => b = found.enter o.key
  | .ended (.ok ()) => True

/-- **A step** of an offer that fails changes nothing after the key has its record. -/
theorem Moves.reaches {found b b' : BestPerKey} {o o' : Offering} (hmoves : o.Moves b o' b')
    (h : o.Reaches found b) : o'.Reaches found b' := by
  cases hmoves with
  | enter hprogress =>
    simp only [Reaches, hprogress] at h
    subst h
    exact rfl
  | load hprogress | giveUp hprogress | refuse hprogress =>
    simp only [Reaches, hprogress] at h
    exact h
  | finish | exchange => exact trivial
  | rest => exact h

end Offering

namespace Contest

/-- Steps of one offer, which say of each exchange whether it fails without a reason. -/
def alone (i : Nat) (spurious : List Bool) : List Turn := spurious.map (Turn.mk i)

/-- **Steps of one offer** take the records where the offer says. -/
theorem run_alone {found : BestPerKey} {i : Nat} (spurious : List Bool) {c : Contest} {o : Offering}
    (ho : c.offers[i]? = some o) (h : o.Reaches found c.best) :
    ∃ o', (c.run (alone i spurious)).offers[i]? = some o' ∧ o'.key = o.key ∧
      o'.Reaches found (c.run (alone i spurious)).best := by
  induction spurious generalizing c o with
  | nil => exact ⟨o, ho, rfl, h⟩
  | cons flag spurious ih =>
    have hmoves := o.moves_step flag c.best
    obtain ⟨hbest, ho'⟩ := step_own ho flag
    obtain ⟨o', hget, hkey, hreaches⟩ := ih ho' (hbest ▸ hmoves.reaches h)
    exact ⟨o', hget, hkey.trans hmoves.same.1, hreaches⟩

/-! ### What the records are -/

/-- **A record** unpacks to the hit of an offer that has ended well. If there is no such offer for the key,
it is the record of a key without hits. -/
theorem Sound.mem_records {budget : Nat} {offered : List (JoinKey × Hit)} {c : Contest}
    (h : c.Sound budget offered) (hdocs : ∀ offer ∈ offered, offer.2.doc ≤ maxPackedDoc) {key : JoinKey}
    {record : PackedHit} (hmem : (key, record) ∈ c.best.records) :
    (∃ o ∈ c.offers, o.key = key ∧ o.progress = .ended (.ok ()) ∧ record.unpack = o.hit) ∨
    (record = .none ∧ ∀ o ∈ c.offers, o.key = key → o.progress ≠ .ended (.ok ())) := by
  have hrecord : c.best.record? key = some record := (BestPerKey.mem_iff_lookup h.nodup).mp hmem
  have hheld : c.best.held key = record := by rw [BestPerKey.held, hrecord, Option.getD_some]
  have hunpack : ∀ o ∈ c.offers, o.hit.pack = record → record.unpack = o.hit := by
    intro o ho hpack
    rw [← hpack]
    exact Hit.unpack_pack (hdocs _ (h.mem_offered ho))
  have horigin := h.origin key
  rw [hheld] at horigin
  rcases horigin with hnone | ⟨o, ho, hkey, hpack, hended⟩
  · by_cases hwell : ∃ o ∈ c.offers, o.key = key ∧ o.progress = .ended (.ok ())
    · -- an offer that has ended well has a record as good as its hit, so its hit packs to this one
      obtain ⟨o, ho, hkey, hended⟩ := hwell
      have hle : o.hit.pack.word ≤ (0 : UInt64) := by
        have hpack := ((h.stands o ho).holds hended).pack_le
        rwa [hkey, hheld, hnone] at hpack
      have hpack : o.hit.pack = record := by
        rw [hnone]
        exact congrArg PackedHit.mk (UInt64.le_antisymm hle UInt64.zero_le)
      exact .inl ⟨o, ho, hkey, hended, hunpack o ho hpack⟩
    · exact .inr ⟨hnone, fun o ho hkey hended => hwell ⟨o, ho, hkey, hended⟩⟩
  · exact .inl ⟨o, ho, hkey, hended, hunpack o ho hpack⟩

/-- **What remains of an offer that fails.** Let offers be made for any keys, with any budget, and let
them take their steps in any order, with exchanges that may fail without a reason. When an offer that has
not begun takes its steps alone and fails, its budget is used up. If its key had a record, all records are
as they were. If it had none, there is one record more, and the hits on record have been joined by one
that nobody offered. So it is with an offer in one step. A record unpacks to the hit of an offer for its
key that has ended well, or there is no such offer and the record is that of a key without hits. -/
theorem failed_offer_remains (budget : Nat) (offered : List (JoinKey × Hit)) (turns : List Turn)
    (hdocs : ∀ offer ∈ offered, offer.2.doc ≤ maxPackedDoc) :
    let c := (start budget offered).run turns
    (∀ (i : Nat) (o : Offering) (spurious : List Bool) (failure : Failure),
      c.offers[i]? = some o → o.progress = .waiting →
      ((c.run (alone i spurious)).offers[i]?).map (·.progress) = some (.ended (.error failure)) →
        failure = .retryBudgetExceeded budget ∧ c.best.Remains o.key (c.run (alone i spurious)).best) ∧
    (∀ (key : JoinKey) (hit : Hit) (failure : Failure), (c.best.offer key hit).1 = .error failure →
      failure = .retryBudgetExceeded budget ∧ c.best.Remains key (c.best.offer key hit).2) ∧
    ∀ key record, (key, record) ∈ c.best.records →
      (∃ o ∈ c.offers, o.key = key ∧ o.progress = .ended (.ok ()) ∧ record.unpack = o.hit) ∨
      (record = .none ∧ ∀ o ∈ c.offers, o.key = key → o.progress ≠ .ended (.ok ())) := by
  intro c
  have hsound : c.Sound budget offered := sound_run budget offered turns
  refine ⟨fun i o spurious failure ho hwaiting hended => ?_, fun key hit failure herror => ?_,
    fun key record hmem => hsound.mem_records hdocs hmem⟩
  · have hlater := (hsound.run (alone i spurious)).1
    have hfound : o.Reaches c.best c.best := by simp only [Offering.Reaches, hwaiting]
    obtain ⟨o', ho', hkey, hreaches⟩ := run_alone spurious ho hfound
    have hprogress : o'.progress = .ended (.error failure) := by
      rw [ho', Option.map_some] at hended
      exact Option.some.inj hended
    have hfails := (hlater.stands o' (List.mem_of_getElem? ho')).fails hprogress
    rw [hlater.budget_eq] at hfails
    simp only [Offering.Reaches, hprogress, hkey] at hreaches
    refine ⟨hfails.failure_eq, ?_⟩
    rw [hreaches]
    exact c.best.remains_enter o.key
  · obtain ⟨hfailure, hbest⟩ := BestPerKey.offer_of_error herror
    rw [hsound.budget_eq] at hfailure
    rw [hbest]
    exact ⟨hfailure, c.best.remains_enter key⟩

/-- Two hits for one key and one for another. -/
def twoShelves : List (JoinKey × Hit) := [(7, ⟨3, .one⟩), (7, ⟨2, .one⟩), (9, ⟨1, .one⟩)]

/-- With a budget of 1 the first offer ends well. An exchange that fails without a reason makes the second
one fail, which leaves its key as it was, and then the third one, which leaves a hit of its key. -/
theorem failed_offer_remains_twoShelves :
    let c := (start 1 twoShelves).run (alone 0 [false, false, false])
    let failing := [false, false, true, false]
    (c.run (alone 1 failing)).best.hits = [⟨3, .one⟩] ∧
      (c.run (alone 2 failing)).best.hits = [⟨3, .one⟩, ⟨maxPackedDoc, ⟨0xffffffff⟩⟩] := by
  intro c failing
  obtain ⟨hfailed, -, -⟩ :=
    failed_offer_remains 1 twoShelves (alone 0 [false, false, false]) (by decide)
  have hhits : c.best.hits = [⟨3, .one⟩] := by decide +kernel
  have hsame := (hfailed 1 { key := 7, hit := ⟨2, .one⟩ } failing (.retryBudgetExceeded 1)
    rfl rfl (by decide +kernel)).2
  have hnew := (hfailed 2 { key := 9, hit := ⟨1, .one⟩ } failing (.retryBudgetExceeded 1)
    rfl rfl (by decide +kernel)).2
  rw [hsame.eq_of_recorded (by decide +kernel), hnew.hits_of_new (by decide +kernel), hhits]
  exact ⟨rfl, rfl⟩

/-- Not every failed offer leaves the hits on record as they were: with a budget of 0, the first offer is
refused, and there is a hit then that nobody offered. -/
theorem not_failed_offer_unchanged :
    ¬ ∀ (budget : Nat) (offered : List (JoinKey × Hit)) (turns : List Turn) (key : JoinKey) (hit : Hit),
      let b := ((start budget offered).run turns).best
      let later := (b.offer key hit).2
      (b.offer key hit).1 = .error (.retryBudgetExceeded budget) →
        later.size = b.size ∧ later.isEmpty = b.isEmpty ∧ later.hits.Perm b.hits ∧
          ∀ reported ∈ later.hits, reported = hit ∨ reported ∈ offered.map (·.2) := by
  intro hunchanged
  obtain ⟨hsize, -, -, -⟩ := hunchanged 0 [] [] 7 ⟨3, .one⟩ (by decide +kernel)
  exact absurd hsize (by decide +kernel)

end Contest

end FederatedSearch
