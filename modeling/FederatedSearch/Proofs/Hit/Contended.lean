import FederatedSearch.Proofs.Hit.Contest
import FederatedSearch.Proofs.Hit.Packed

/-!
# Records that offers contend for

However the steps of offers fall, records only grow, and a record is that of a key without hits or one
of the hits offered for the key. An offer that has seen a record knows the least that the record will be
from then on. This is why it may stop when it has seen a record as good as its hit, whoever wrote that,
and why the record is as good as its hit ever after.

So when all offers have ended well, the records are what they are after updates that nobody interfered
with, in any order.

## Main definitions

* `BestPerKey.Grows` — what may become of records
* `BestPerKey.From` — where records come from
* `Offering.Tries`, `Offering.Fails`, `Offering.Stands` — what holds of an offer, at each stage
* `Contest.Sound` — what holds of all offers and the records

## Main results

* `Offering.Moves.grows`, `Offering.Moves.held`, `Offering.Moves.stands` — a step of one offer
* `Contest.Sound.step`, `Contest.sound_run` — a step of any offer, and all steps
* `Contest.Sound.covers` — the records when all offers have ended well
* `Contest.run_offers` — what can be said of any interleaving
-/

namespace FederatedSearch

/-! ### Records grow -/

namespace BestPerKey

/-- What may become of records: no key loses its record, and no record gets worse. -/
structure Grows (b b' : BestPerKey) : Prop where
  budget_eq : b'.budget = b.budget
  kept : ∀ key, (b.record? key).isSome = true → (b'.record? key).isSome = true
  held_le : ∀ key, (b.held key).word ≤ (b'.held key).word

theorem Grows.refl (b : BestPerKey) : b.Grows b := ⟨rfl, fun _ h => h, fun _ => UInt64.le_refl _⟩

theorem Grows.trans {b₁ b₂ b₃ : BestPerKey} (h : b₁.Grows b₂) (h' : b₂.Grows b₃) : b₁.Grows b₃ where
  budget_eq := h'.budget_eq.trans h.budget_eq
  kept key hkey := h'.kept key (h.kept key hkey)
  held_le key := UInt64.le_trans (h.held_le key) (h'.held_le key)

theorem isSome_setRecord (b : BestPerKey) (key : JoinKey) (record : PackedHit) :
    (record? { b with records := setRecord key record b.records } key).isSome = true := by
  rw [record?_setRecord, if_pos rfl]
  rfl

theorem grows_setRecord {b : BestPerKey} {key : JoinKey} {record : PackedHit}
    (h : (b.held key).word ≤ record.word) :
    b.Grows { b with records := setRecord key record b.records } where
  budget_eq := rfl
  kept other hother := by
    rw [record?_setRecord]
    split
    · rfl
    · exact hother
  held_le other := by
    rw [held_setRecord]
    split
    · rename_i heq
      exact heq ▸ h
    · exact UInt64.le_refl _

end BestPerKey

/-! ### What holds of an offer -/

namespace Offering

section Meet

variable (o : Offering) (access : Access) (progress : Progress)

theorem exchanges_meet :
    (o.meet access progress).exchanges = o.exchanges + if access.isExchange = true then 1 else 0 := by
  rw [exchanges, meet, List.countP_append, List.countP_singleton, exchanges]

theorem refusals_meet :
    (o.meet access progress).refusals = o.refusals + if access.isRefused = true then 1 else 0 := by
  rw [refusals, meet, List.countP_append, List.countP_singleton, refusals]

theorem lastFound?_meet : (o.meet access progress).lastFound? = some access.found := by
  rw [lastFound?, meet, List.getLast?_concat, Option.map_some]

end Meet

/-- An offer that is trying: all its exchanges so far have failed, those that are left add up to the
budget, and the record is at least what was last seen. -/
structure Tries (b : BestPerKey) (o : Offering) (r : Raising) : Prop where
  recorded : (b.record? o.key).isSome = true
  target_eq : r.target = o.hit.pack
  budget_eq : r.budget = b.budget
  exchanges_eq : o.exchanges = o.refusals
  refusals_add : o.refusals + r.left = b.budget
  lastFound : o.lastFound? = some r.seen
  seen_le : r.seen.word ≤ (b.held o.key).word

/-- An offer that has failed: its exchanges failed, as many as the budget allows, and the record last
seen was worse than its hit. -/
structure Fails (budget : Nat) (o : Offering) (failure : Failure) : Prop where
  failure_eq : failure = .retryBudgetExceeded budget
  exchanges_eq : o.exchanges = budget
  refusals_eq : o.refusals = budget
  lastFound : ∃ found, o.lastFound? = some found ∧ found.word < o.hit.pack.word

/-- An offer that has ended well: the record is as good as its hit. -/
structure Holds (b : BestPerKey) (o : Offering) : Prop where
  recorded : (b.record? o.key).isSome = true
  exchanges_le : o.exchanges ≤ b.budget
  pack_le : o.hit.pack.word ≤ (b.held o.key).word

/-- What holds of an offer, at each stage. -/
def Stands (b : BestPerKey) (o : Offering) : Prop :=
  match o.progress with
  | .waiting => o.accesses = []
  | .entered => o.accesses = [] ∧ (b.record? o.key).isSome = true
  | .raising r => o.Tries b r
  | .ended (.ok ()) => o.Holds b
  | .ended (.error failure) => o.Fails b.budget failure

section Stands

variable {o o' : Offering} {b b' : BestPerKey}

theorem Stands.waiting (h : o.Stands b) (hprogress : o.progress = .waiting) : o.accesses = [] := by
  simpa only [Stands, hprogress] using h

theorem Stands.entered (h : o.Stands b) (hprogress : o.progress = .entered) :
    o.accesses = [] ∧ (b.record? o.key).isSome = true := by
  simpa only [Stands, hprogress] using h

theorem Stands.tries (h : o.Stands b) {r : Raising} (hprogress : o.progress = .raising r) :
    o.Tries b r := by
  simpa only [Stands, hprogress] using h

theorem Stands.holds (h : o.Stands b) (hprogress : o.progress = .ended (.ok ())) : o.Holds b := by
  simpa only [Stands, hprogress] using h

theorem Stands.fails (h : o.Stands b) {failure : Failure}
    (hprogress : o.progress = .ended (.error failure)) : o.Fails b.budget failure := by
  simpa only [Stands, hprogress] using h

/-- The budget is never exceeded. -/
theorem Stands.exchanges_le (h : o.Stands b) : o.exchanges ≤ b.budget := by
  rcases hprogress : o.progress with _ | _ | r | ⟨failure | ⟨⟩⟩
  · rw [exchanges, h.waiting hprogress]
    exact Nat.zero_le _
  · rw [exchanges, (h.entered hprogress).1]
    exact Nat.zero_le _
  · have htries := h.tries hprogress
    rw [htries.exchanges_eq, ← htries.refusals_add]
    exact Nat.le_add_right _ _
  · exact (h.fails hprogress).exchanges_eq.le
  · exact (h.holds hprogress).exchanges_le

/-- **What holds of an offer** holds on while others raise records. -/
theorem Stands.mono (h : o.Stands b) (hgrows : b.Grows b') : o.Stands b' := by
  have hheld := hgrows.held_le o.key
  rcases hprogress : o.progress with _ | _ | r | ⟨failure | ⟨⟩⟩ <;> simp only [Stands, hprogress]
  · exact h.waiting hprogress
  · exact (h.entered hprogress).imp_right (hgrows.kept o.key)
  · have htries := h.tries hprogress
    exact { htries with
      recorded := hgrows.kept _ htries.recorded
      budget_eq := htries.budget_eq.trans hgrows.budget_eq.symm
      refusals_add := htries.refusals_add.trans hgrows.budget_eq.symm
      seen_le := UInt64.le_trans htries.seen_le hheld }
  · exact hgrows.budget_eq ▸ h.fails hprogress
  · have hholds := h.holds hprogress
    exact ⟨hgrows.kept _ hholds.recorded, hgrows.budget_eq ▸ hholds.exchanges_le,
      UInt64.le_trans hholds.pack_le hheld⟩

/-! ### A step of an offer -/

theorem Moves.same (h : o.Moves b o' b') : o'.key = o.key ∧ o'.hit = o.hit := by
  cases h <;> exact ⟨rfl, rfl⟩

theorem Moves.of_ended (h : o.Moves b o' b') {outcome : Except Failure Unit}
    (hended : o.progress = .ended outcome) : o' = o := by
  cases h with
  | rest => rfl
  | enter h | load h | finish h | giveUp h | exchange h | refuse h => exact nomatch h.symm.trans hended

theorem Moves.nodup (h : o.Moves b o' b') (hnodup : (b.records.map (·.1)).Nodup) :
    (b'.records.map (·.1)).Nodup := by
  cases h with
  | enter | exchange => exact BestPerKey.nodup_setRecord _ _ hnodup
  | load | finish | giveUp | refuse | rest => exact hnodup

/-- Only the key of the offer gets a record. -/
theorem Moves.recorded (h : o.Moves b o' b') {key : JoinKey}
    (hkey : (b'.record? key).isSome = true) : key = o.key ∨ (b.record? key).isSome = true := by
  cases h with
  | enter | exchange =>
    rw [BestPerKey.record?_setRecord] at hkey
    split at hkey
    · rename_i heq
      exact .inl heq
    · exact .inr hkey
  | load | finish | giveUp | refuse | rest => exact .inr hkey

/-- **A step** leaves all records as good as they were, unless it is an exchange, with which the offer
ends well. -/
theorem Moves.held (h : o.Moves b o' b') (hstands : o.Stands b) :
    (∀ key, b'.held key = b.held key) ∨ o'.progress = .ended (.ok ()) ∧
      ∀ key, b'.held key = if key = o.key then o.hit.pack else b.held key := by
  cases h with
  | load | finish | giveUp | refuse | rest => exact .inl fun _ => rfl
  | enter =>
    refine .inl fun key => ?_
    rw [BestPerKey.held_setRecord]
    split
    · rename_i heq
      rw [heq]
    · rfl
  | @exchange r hprogress hseen hleft hheld =>
    refine .inr ⟨rfl, fun key => ?_⟩
    rw [BestPerKey.held_setRecord, (hstands.tries hprogress).target_eq]

/-- **A step** lets records grow. -/
theorem Moves.grows (h : o.Moves b o' b') : b.Grows b' := by
  cases h with
  | enter => exact BestPerKey.grows_setRecord (UInt64.le_refl _)
  | exchange _ hseen _ hheld => exact BestPerKey.grows_setRecord (hheld ▸ UInt64.le_of_lt hseen)
  | load | finish | giveUp | refuse | rest => exact .refl b

/-- **A step** takes an offer from one stage to the next. -/
theorem Moves.stands (h : o.Moves b o' b') (hstands : o.Stands b) : o'.Stands b' := by
  cases h with
  | enter hprogress => exact ⟨hstands.waiting hprogress, b.isSome_setRecord o.key _⟩
  | load hprogress =>
    obtain ⟨hnone, hrecorded⟩ := hstands.entered hprogress
    have hexchanges : o.exchanges = 0 := by rw [exchanges, hnone, List.countP_nil]
    have hrefusals : o.refusals = 0 := by rw [refusals, hnone, List.countP_nil]
    exact
      { recorded := hrecorded
        target_eq := rfl
        budget_eq := rfl
        exchanges_eq := by rw [exchanges_meet, refusals_meet, hexchanges, hrefusals]; rfl
        refusals_add := by rw [refusals_meet, hrefusals]; exact Nat.zero_add _
        lastFound := lastFound?_meet _ _ _
        seen_le := UInt64.le_refl _ }
  | @finish r hprogress hseen =>
    have htries := hstands.tries hprogress
    have hpack : o.hit.pack.word ≤ r.seen.word := htries.target_eq ▸ hseen
    exact ⟨htries.recorded, hstands.exchanges_le, UInt64.le_trans hpack htries.seen_le⟩
  | @giveUp r hprogress hseen hleft =>
    have htries := hstands.tries hprogress
    have hrefusals : o.refusals = b.budget := by rw [← htries.refusals_add, hleft, Nat.add_zero]
    exact
      { failure_eq := congrArg Failure.retryBudgetExceeded htries.budget_eq
        exchanges_eq := htries.exchanges_eq.trans hrefusals
        refusals_eq := hrefusals
        lastFound := ⟨r.seen, htries.lastFound, htries.target_eq ▸ hseen⟩ }
  | @exchange r hprogress hseen hleft hheld =>
    have htries := hstands.tries hprogress
    have htried := htries.refusals_add
    refine ⟨b.isSome_setRecord o.key _, ?_, ?_⟩
    · rw [exchanges_meet, htries.exchanges_eq, Access.isExchange, if_pos rfl]
      show o.refusals + 1 ≤ b.budget
      omega
    · rw [BestPerKey.held_setRecord, meet, if_pos rfl, htries.target_eq]
      exact UInt64.le_refl _
  | @refuse r hprogress hseen hleft =>
    have htries := hstands.tries hprogress
    have htried := htries.refusals_add
    refine { htries with exchanges_eq := ?_, refusals_add := ?_, lastFound := ?_, seen_le := ?_ }
    · rw [exchanges_meet, refusals_meet, htries.exchanges_eq]
      rfl
    · rw [refusals_meet, Access.isRefused, if_pos rfl, Raising.refused]
      show o.refusals + 1 + (r.left - 1) = b.budget
      omega
    · exact lastFound?_meet _ _ _
    · exact UInt64.le_refl _
  | rest => exact hstands

end Stands

end Offering

/-! ### What holds of all offers -/

namespace BestPerKey

theorem mem_hitsOf {offered : List (JoinKey × Hit)} {key : JoinKey} {hit : Hit} :
    hit ∈ hitsOf offered key ↔ (key, hit) ∈ offered := by
  rw [hitsOf, List.mem_map]
  constructor
  · rintro ⟨⟨key', hit'⟩, hmem, rfl⟩
    obtain ⟨hmem, hkey⟩ := List.mem_filter.mp hmem
    rwa [← of_decide_eq_true hkey]
  · exact fun hmem => ⟨(key, hit), List.mem_filter.mpr ⟨hmem, decide_eq_true rfl⟩, rfl⟩

/-- Each record is that of a key without hits or a hit offered for the key, and only keys of offers have
records. -/
structure From (offered : List (JoinKey × Hit)) (b : BestPerKey) : Prop where
  nodup : (b.records.map (·.1)).Nodup
  recorded : ∀ key, (b.record? key).isSome = true → ∃ hit, (key, hit) ∈ offered
  origin : ∀ key, b.held key = .none ∨ ∃ hit, (key, hit) ∈ offered ∧ hit.pack = b.held key

/-- The records are as good as these hits. -/
def AtLeast (offered : List (JoinKey × Hit)) (b : BestPerKey) : Prop :=
  ∀ offer ∈ offered, (b.record? offer.1).isSome = true ∧ offer.2.pack.word ≤ (b.held offer.1).word

theorem AtLeast.mono {offered : List (JoinKey × Hit)} {b b' : BestPerKey} (h : b.AtLeast offered)
    (hgrows : b.Grows b') : b'.AtLeast offered := fun offer hmem =>
  ⟨hgrows.kept _ (h offer hmem).1, UInt64.le_trans (h offer hmem).2 (hgrows.held_le _)⟩

/-- Records that are as good as all hits offered are the best of these. -/
theorem From.covers {offered : List (JoinKey × Hit)} {b : BestPerKey} (h : b.From offered)
    (hholds : b.AtLeast offered) : b.Covers offered := by
  refine ⟨h.nodup, fun key => ?_⟩
  rcases hrecord : b.record? key with _ | record
  · refine List.eq_nil_iff_forall_not_mem.mpr fun hit hhit => ?_
    have hsome := (hholds (key, hit) (mem_hitsOf.mp hhit)).1
    rw [hrecord] at hsome
    exact Bool.false_ne_true hsome
  · have hheld : b.held key = record := by rw [held, hrecord, Option.getD_some]
    obtain ⟨hit, hmem⟩ := h.recorded key (Option.isSome_of_eq_some hrecord)
    rw [← hheld]
    refine ⟨List.ne_nil_of_mem (mem_hitsOf.mpr hmem), fun hit hhit => ?_, ?_⟩
    · exact (hholds (key, hit) (mem_hitsOf.mp hhit)).2
    · rcases h.origin key with hnone | ⟨first, hfirst, hpack⟩
      · exact .inl hnone
      · exact .inr ⟨first, mem_hitsOf.mpr hfirst, hpack⟩

/-- The record of a key unpacks to the most relevant hit offered for the key. -/
theorem Covers.exists_record {b : BestPerKey} {offered : List (JoinKey × Hit)} (h : b.Covers offered)
    (hdocs : ∀ offer ∈ offered, offer.2.doc ≤ maxPackedDoc) {key : JoinKey} {hit : Hit}
    (hmem : (key, hit) ∈ offered) :
    ∃ record, b.record? key = some record ∧ (key, record.unpack) ∈ offered ∧
      ∀ other, (key, other) ∈ offered → ¬ other.Outranks record.unpack := by
  have hbest := h.isBest key
  rcases hrecord : b.record? key with _ | record <;> rw [hrecord] at hbest
  · have hnil : hitsOf offered key = [] := hbest
    exact absurd (mem_hitsOf.mpr hmem) (hnil ▸ List.not_mem_nil)
  · obtain ⟨hfrom, hfirst⟩ := hbest.unpack fun hit hhit => hdocs _ (mem_hitsOf.mp hhit)
    refine ⟨record, rfl, mem_hitsOf.mp hfrom, fun other hother => ?_⟩
    rw [← Hit.isBefore_iff_outranks, hfirst other (mem_hitsOf.mpr hother)]
    exact Bool.false_ne_true

end BestPerKey

namespace Contest

/-- What holds of offers under way and the records they contend for. -/
structure Sound (budget : Nat) (offered : List (JoinKey × Hit)) (c : Contest) : Prop where
  budget_eq : c.best.budget = budget
  offers_eq : c.offers.map (fun o => (o.key, o.hit)) = offered
  nodup : (c.best.records.map (·.1)).Nodup
  offered : ∀ key, (c.best.record? key).isSome = true → ∃ hit, (key, hit) ∈ offered
  /-- A record is that of a key without hits, or the hit of an offer that has ended well. -/
  origin : ∀ key, c.best.held key = .none ∨
    ∃ o ∈ c.offers, o.key = key ∧ o.hit.pack = c.best.held key ∧ o.progress = .ended (.ok ())
  stands : ∀ o ∈ c.offers, o.Stands c.best

variable {budget : Nat} {offered : List (JoinKey × Hit)} {c : Contest}

theorem sound_start (budget : Nat) (offered : List (JoinKey × Hit)) :
    (start budget offered).Sound budget offered where
  budget_eq := rfl
  offers_eq := by
    rw [start, List.map_map]
    exact List.map_id _
  nodup := .nil
  offered _ hrecord := nomatch hrecord
  origin _ := .inl rfl
  stands o ho := by
    obtain ⟨e, -, rfl⟩ := List.mem_map.mp ho
    exact rfl

theorem step_cases (c : Contest) (turn : Turn) :
    c.step turn = c ∨ ∃ o o' best, c.offers[turn.offer]? = some o ∧ o.Moves c.best o' best ∧
      c.step turn = ⟨best, c.offers.set turn.offer o'⟩ := by
  rw [step]
  cases ho : c.offers[turn.offer]? with
  | none => exact .inl rfl
  | some o => exact .inr ⟨o, _, _, rfl, o.moves_step turn.spurious c.best, rfl⟩

/-- An offer that has ended takes no more steps. -/
theorem mem_step_of_ended {o : Offering} (ho : o ∈ c.offers) {outcome : Except Failure Unit}
    (hended : o.progress = .ended outcome) (turn : Turn) : o ∈ (c.step turn).offers := by
  obtain ⟨i, hi⟩ := List.getElem?_of_mem ho
  rcases c.step_cases turn with hsame | ⟨moved, moved', best, hget, hmoves, hstep⟩
  · rwa [hsame]
  · rw [hstep]
    refine List.mem_of_getElem? (i := i) ?_
    by_cases heq : turn.offer = i
    · obtain rfl : moved = o := Option.some.inj ((heq ▸ hget).symm.trans hi)
      rw [hmoves.of_ended hended, ← heq]
      exact List.getElem?_set_self (List.getElem?_eq_some_iff.mp hget).1
    · rw [List.getElem?_set_ne heq, hi]

namespace Sound

variable (h : c.Sound budget offered)
include h

theorem mem_offered {o : Offering} (ho : o ∈ c.offers) : (o.key, o.hit) ∈ offered := by
  rw [← h.offers_eq]
  exact List.mem_map_of_mem (f := fun o : Offering => (o.key, o.hit)) ho

/-- **A step** of any offer. -/
theorem step (turn : Turn) : (c.step turn).Sound budget offered ∧ c.best.Grows (c.step turn).best := by
  rcases c.step_cases turn with hsame | ⟨o, o', best, hget, hmoves, hstep⟩
  · rw [hsame]
    exact ⟨h, .refl _⟩
  have ho : o ∈ c.offers := List.mem_of_getElem? hget
  have ho' : o' ∈ c.offers.set turn.offer o' :=
    List.mem_set (List.getElem?_eq_some_iff.mp hget).1 _
  obtain ⟨hkey, hhit⟩ := hmoves.same
  have hgrows := hmoves.grows
  have hheld := hmoves.held (h.stands o ho)
  have hkept : ∀ key, best.held key = c.best.held key → best.held key = .none ∨
      ∃ o ∈ (c.step turn).offers, o.key = key ∧ o.hit.pack = best.held key ∧
        o.progress = .ended (.ok ()) := by
    intro key heq
    rw [heq]
    rcases h.origin key with hnone | ⟨o, ho, hkey, hpack, hended⟩
    · exact .inl hnone
    · exact .inr ⟨o, mem_step_of_ended ho hended turn, hkey, hpack, hended⟩
  rw [hstep] at hkept ⊢
  refine ⟨?_, hgrows⟩
  exact
    { budget_eq := hgrows.budget_eq.trans h.budget_eq
      offers_eq := by
        obtain ⟨hi, rfl⟩ := List.getElem?_eq_some_iff.mp hget
        rw [List.map_set, hkey, hhit, ← h.offers_eq]
        refine (congrArg _ ?_).trans (List.set_getElem_self (by rwa [List.length_map]))
        rw [List.getElem_map]
      nodup := hmoves.nodup h.nodup
      offered := by
        intro key hrecord
        rcases hmoves.recorded hrecord with rfl | hrecord
        · exact ⟨o.hit, h.mem_offered ho⟩
        · exact h.offered key hrecord
      origin := by
        intro key
        rcases hheld with hheld | ⟨hended, hheld⟩
        · exact hkept key (hheld key)
        by_cases heq : key = o.key
        · exact .inr ⟨o', ho', hkey.trans heq.symm, by rw [hheld, if_pos heq, hhit], hended⟩
        · exact hkept key (by rw [hheld, if_neg heq])
      stands := by
        intro other hother
        rcases List.mem_or_eq_of_mem_set hother with hother | rfl
        · exact (h.stands other hother).mono hgrows
        · exact hmoves.stands (h.stands o ho) }

theorem run (turns : List Turn) :
    (c.run turns).Sound budget offered ∧ c.best.Grows (c.run turns).best := by
  induction turns generalizing c with
  | nil => exact ⟨h, .refl _⟩
  | cons turn turns ih =>
    obtain ⟨hstep, hgrows⟩ := h.step turn
    obtain ⟨hrun, hgrows'⟩ := ih hstep
    exact ⟨hrun, hgrows.trans hgrows'⟩

/-- **The records when all offers have ended well** are those of updates that nobody interfered with. -/
theorem covers (hended : ∀ o ∈ c.offers, o.progress = .ended (.ok ())) : c.best.Covers offered := by
  have hholds : c.best.AtLeast offered := by
    rw [← h.offers_eq]
    rintro offer hmem
    obtain ⟨o, ho, rfl⟩ := List.mem_map.mp hmem
    have hholds := (h.stands o ho).holds (hended o ho)
    exact ⟨hholds.recorded, hholds.pack_le⟩
  have horigin : ∀ key, c.best.held key = .none ∨
      ∃ hit, (key, hit) ∈ offered ∧ hit.pack = c.best.held key := fun key =>
    (h.origin key).imp_right fun ⟨o, ho, hkey, hpack, _⟩ => ⟨o.hit, hkey ▸ h.mem_offered ho, hpack⟩
  exact BestPerKey.From.covers ⟨h.nodup, h.offered, horigin⟩ hholds

end Sound

theorem sound_run (budget : Nat) (offered : List (JoinKey × Hit)) (turns : List Turn) :
    ((start budget offered).run turns).Sound budget offered :=
  ((sound_start budget offered).run turns).1

/-- **Offers that contend for records.** Let offers be made for any keys, with any budget, and let them
take their steps in any order, with exchanges that may fail without a reason. No record ever gets worse,
and each is that of a key without hits or the hit of an offer for the key that has ended well. When an
offer has ended well the record is as good as its hit from then on. So when all have ended well, the
record of a key unpacks to the most relevant hit offered for it. No offer tries more exchanges than the
budget allows, and one fails only when as many have failed and the record last seen was still worse than
its hit. -/
theorem run_offers (budget : Nat) (offered : List (JoinKey × Hit)) (turns more : List Turn) :
    let c := (start budget offered).run turns
    let later := c.run more
    c.offers.map (fun o => (o.key, o.hit)) = offered ∧
      (∀ key, (c.best.held key).word ≤ (later.best.held key).word) ∧
      (∀ key, c.best.held key = .none ∨ ∃ o ∈ c.offers,
        o.key = key ∧ o.hit.pack = c.best.held key ∧ o.progress = .ended (.ok ())) ∧
      (∀ o ∈ c.offers, o.progress = .ended (.ok ()) → o.hit.pack.word ≤ (later.best.held o.key).word) ∧
      ((∀ o ∈ c.offers, o.progress = .ended (.ok ())) →
        (∀ offer ∈ offered, offer.2.doc ≤ maxPackedDoc) → ∀ key hit, (key, hit) ∈ offered →
          ∃ record, c.best.record? key = some record ∧ (key, record.unpack) ∈ offered ∧
            ∀ other, (key, other) ∈ offered → ¬ other.Outranks record.unpack) ∧
      ∀ o ∈ c.offers, o.exchanges ≤ budget ∧ ∀ failure, o.progress = .ended (.error failure) →
        failure = .retryBudgetExceeded budget ∧ o.exchanges = budget ∧ o.refusals = budget ∧
          ∃ found, o.lastFound? = some found ∧ found.word < o.hit.pack.word := by
  intro c later
  have hsound : c.Sound budget offered := sound_run budget offered turns
  obtain ⟨-, hgrows⟩ := hsound.run more
  refine ⟨hsound.offers_eq, hgrows.held_le, hsound.origin, fun o ho hended => ?_,
    fun hended hdocs key hit hmem => (hsound.covers hended).exists_record hdocs hmem,
    fun o ho => ⟨?_, fun failure hended => ?_⟩⟩
  · exact UInt64.le_trans ((hsound.stands o ho).holds hended).pack_le (hgrows.held_le o.key)
  · exact hsound.budget_eq ▸ (hsound.stands o ho).exchanges_le
  · have hfails := (hsound.stands o ho).fails hended
    rw [hsound.budget_eq] at hfails
    exact ⟨hfails.failure_eq, hfails.exchanges_eq, hfails.refusals_eq, hfails.lastFound⟩

/-- Two offers for one key, of hits that are tied on their score. -/
def tiedOffers : List (JoinKey × Hit) := [(7, ⟨5, .one⟩), (7, ⟨3, .one⟩)]

/-- Both offers find no record. The second one raises it, though not at the first attempt. The first one
is refused, and sees that its hit is not needed. -/
def overtaking : List Turn :=
  [⟨0, false⟩, ⟨0, false⟩, ⟨1, false⟩, ⟨1, false⟩, ⟨1, true⟩, ⟨1, false⟩, ⟨0, false⟩, ⟨0, false⟩]

/-- Of tied hits the one with the lower number is on record. An offer that may try one exchange fails if
that fails without a reason. -/
theorem run_offers_contended :
    (∃ record, ((start 2 tiedOffers).run overtaking).best.record? 7 = some record ∧
      record.unpack = ⟨3, .one⟩) ∧
    ∀ o ∈ ((start 1 tiedOffers).run [⟨0, false⟩, ⟨0, false⟩, ⟨0, true⟩, ⟨0, false⟩]).offers,
      o.progress ≠ .waiting → o.progress = .ended (.error (.retryBudgetExceeded 1)) ∧ o.refusals = 1 := by
  constructor
  · obtain ⟨-, -, -, -, hbest, -⟩ := run_offers 2 tiedOffers overtaking []
    have hended : ∀ o ∈ ((start 2 tiedOffers).run overtaking).offers, o.progress = .ended (.ok ()) := by
      decide +kernel
    obtain ⟨record, hrecord, hmem, hfirst⟩ := hbest hended (by decide) 7 ⟨5, .one⟩ (by decide)
    refine ⟨record, hrecord, ?_⟩
    have hbefore : (⟨3, .one⟩ : Hit).Outranks ⟨5, .one⟩ := Hit.isBefore_iff_outranks.mp (by decide)
    rw [tiedOffers, List.mem_pair] at hmem
    rcases hmem with heq | heq
    · exact absurd ((Prod.mk.inj heq).2 ▸ hbefore) (hfirst _ (by decide))
    · exact (Prod.mk.inj heq).2
  · obtain ⟨-, -, -, -, -, hfails⟩ :=
      run_offers 1 tiedOffers [⟨0, false⟩, ⟨0, false⟩, ⟨0, true⟩, ⟨0, false⟩] []
    intro o ho hbegun
    have hfailed : o.progress = .ended (.error (.retryBudgetExceeded 1)) := by
      revert o
      decide +kernel
    exact ⟨hfailed, ((hfails o ho).2 _ hfailed).2.2.1⟩

end Contest

end FederatedSearch
