import FederatedSearch.Hit.TopHits
import FederatedSearch.Proofs.Number.Order
import FederatedSearch.Proofs.Order.Best

/-!
# The most relevant hits

Relevance is a strict total order on hits. Hence a `TopHits` has the best of the hits offered to it,
no matter in which order they were offered.

## Main definitions

* `Hit.Outranks` — relevance order, in words
* `TopHits.Keeps` — the hits kept are the best of those seen

## Main results

* `Hit.ordersOn_isBefore` — relevance is a strict total order
* `TopHits.hits_insertAll` — the best of the hits offered
* `TopHits.Keeps.threshold_eq_some_iff` — which hit is the one to beat
* `TopHits.offer_flag_iff` — what the flag of an offer says
-/

namespace FederatedSearch

open Std

namespace Hit

theorem compareRelevance_eq :
    compareRelevance = compareLex (fun a b => b.score.compareTotal a.score) (compareOn doc) := rfl

instance : TransCmp compareRelevance := by
  have hscore : TransCmp fun a b : Hit => b.score.compareTotal a.score :=
    { eq_swap := OrientedCmp.eq_swap
      isLE_trans := fun hab hbc => TransCmp.isLE_trans hbc hab }
  rw [compareRelevance_eq]
  infer_instance

/-- Only a hit itself is tied with it. -/
theorem eq_of_compareRelevance {a b : Hit} (h : a.compareRelevance b = .eq) : a = b := by
  obtain ⟨hscore, hdoc⟩ := Ordering.then_eq_eq.mp h
  have hscores : b.score = a.score := Binary32.eq_of_compareTotal hscore
  have hdocs : a.doc = b.doc := LawfulEqCmp.eq_of_compare hdoc
  cases a
  cases b
  simp_all

theorem isBefore_iff {a b : Hit} : a.isBefore b = true ↔ a.compareRelevance b = .lt := by
  simp [isBefore]

/-- The first hit has the higher score, or the same score and the lower number. -/
def Outranks (a b : Hit) : Prop :=
  b.score.compareTotal a.score = .lt ∨ a.score = b.score ∧ a.doc < b.doc

theorem isBefore_iff_outranks {a b : Hit} : a.isBefore b = true ↔ a.Outranks b := by
  have htied : b.score.compareTotal a.score = .eq ↔ a.score = b.score := by
    constructor
    · exact fun h => (Binary32.eq_of_compareTotal h).symm
    · intro h
      rw [h]
      exact ReflCmp.compare_self
  rw [isBefore_iff, compareRelevance, Ordering.then_eq_lt, htied, Nat.compare_eq_lt, Outranks]

theorem compareRelevance_swap (a b : Hit) : a.compareRelevance b = (b.compareRelevance a).swap :=
  OrientedCmp.eq_swap

/-- **Relevance** is a strict total order. -/
theorem ordersOn_isBefore : OrdersOn isBefore fun _ => True where
  asymm {a b} _ _ h := by
    rw [isBefore, compareRelevance_swap, isBefore_iff.mp h]
    rfl
  trans _ _ _ hab hbc := isBefore_iff.mpr (TransCmp.lt_trans (isBefore_iff.mp hab) (isBefore_iff.mp hbc))
  total {a b} _ _ hab hba := by
    refine eq_of_compareRelevance ?_
    rw [isBefore, beq_eq_false_iff_ne] at hab hba
    cases hcompare : a.compareRelevance b with
    | eq => rfl
    | lt => exact absurd hcompare hab
    | gt => exact absurd (by rw [compareRelevance_swap, hcompare]; rfl) hba

theorem not_isBefore_self (hit : Hit) : ¬ hit.isBefore hit = true := by
  have hself : hit.compareRelevance hit = .eq := ReflCmp.compare_self
  rw [isBefore_iff, hself]
  exact Ordering.noConfusion

/-- The hits that come first are the best. -/
theorem firstOf_outranks_iff {k : Nat} {hits page : List Hit} :
    FirstOf Outranks k hits page ↔ page = best isBefore k hits :=
  ordersOn_isBefore.firstOf_iff_eq_best (fun _ _ _ _ => isBefore_iff_outranks) fun _ _ => trivial

theorem insertInOrder_eq (hit : Hit) (hits : List Hit) :
    hit.insertInOrder hits = insertBy isBefore hit hits := by
  induction hits with
  | nil => rfl
  | cons h rest ih => rw [insertInOrder, insertBy, ih]

end Hit

/-! ### Offering hits -/

namespace TopHits

/-- The hits kept are the best of those seen. -/
def Keeps (t : TopHits) (seen : List Hit) : Prop := t.hits = best Hit.isBefore t.capacity seen

theorem keeps_empty (capacity : Nat) : (empty capacity).Keeps [] := (List.take_nil).symm

theorem Keeps.sorted {t : TopHits} {seen : List Hit} (h : t.Keeps seen) :
    Sorted Hit.isBefore t.hits := by
  rw [h]
  exact (Hit.ordersOn_isBefore.sorted_sortBy fun _ _ => trivial).sublist (List.take_sublist _ _)

theorem Keeps.length_le {t : TopHits} {seen : List Hit} (h : t.Keeps seen) :
    t.hits.length ≤ t.capacity := by
  rw [h]
  exact List.length_take_le _ _

/-! ### One offer -/

theorem threshold_eq_none {t : TopHits} (h : t.size < t.capacity) : t.threshold = none := by
  simp [threshold, isFull, h]

/-- The last hit is the one to beat, if there is no room left. -/
theorem threshold_eq_last {t : TopHits} (hfull : t.capacity ≤ t.size) {front : List Hit} {last : Hit}
    (hhits : t.hits = front ++ [last]) : t.threshold = some last := by
  simp [threshold, isFull, hfull, hhits]

/-- What an offer may come to. -/
inductive Takes (t : TopHits) (hit : Hit) : TopHits × Bool → Prop
  | useless (hzero : t.capacity = 0) : Takes t hit (t, false)
  | room (hroom : t.size < t.capacity) :
      Takes t hit ({ t with hits := insertBy Hit.isBefore hit t.hits }, true)
  | replaces {front : List Hit} {last : Hit} (hfull : t.capacity ≤ t.size)
      (hhits : t.hits = front ++ [last]) (hbefore : hit.isBefore last = true) :
      Takes t hit ({ t with hits := insertBy Hit.isBefore hit front }, true)
  | refuses {front : List Hit} {last : Hit} (hfull : t.capacity ≤ t.size)
      (hhits : t.hits = front ++ [last]) (hbefore : hit.isBefore last = false) : Takes t hit (t, false)

theorem takes_offer (t : TopHits) (hit : Hit) : t.Takes hit (t.offer hit) := by
  rw [offer]
  split
  · exact .useless ‹_›
  · rename_i hzero
    rcases Nat.lt_or_ge t.size t.capacity with hroom | hfull
    · rw [threshold_eq_none hroom, Hit.insertInOrder_eq]
      exact .room hroom
    · obtain ⟨front, last, hhits⟩ : ∃ front last, t.hits = front ++ [last] := by
        refine ⟨t.hits.dropLast, t.hits.getLast ?_, (List.dropLast_append_getLast _).symm⟩
        intro hnil
        rw [size, hnil, List.length_nil] at hfull
        exact hzero (Nat.le_zero.mp hfull)
      simp only [threshold_eq_last hfull hhits, hhits, List.dropLast_concat, Hit.insertInOrder_eq]
      split
      · exact .replaces hfull hhits ‹_›
      · exact .refuses hfull hhits (Bool.eq_false_of_not_eq_true ‹_›)

theorem Takes.capacity_eq {t : TopHits} {hit : Hit} {r : TopHits × Bool} (h : t.Takes hit r) :
    r.1.capacity = t.capacity := by
  cases h <;> rfl

theorem capacity_insert (t : TopHits) (hit : Hit) : (t.insert hit).capacity = t.capacity :=
  (t.takes_offer hit).capacity_eq

theorem Takes.hits_eq {t : TopHits} {hit : Hit} {r : TopHits × Bool} (h : t.Takes hit r)
    {seen : List Hit} (hkeeps : t.Keeps seen) :
    r.1.hits = (insertBy Hit.isBefore hit t.hits).take t.capacity := by
  have hlength := hkeeps.length_le
  have hinserted : ∀ hits, (insertBy Hit.isBefore hit hits).length = hits.length + 1 := fun hits =>
    (insertBy_perm Hit.isBefore hit hits).length_eq
  cases h with
  | useless hzero =>
    rw [hzero] at hlength ⊢
    rw [List.take_zero]
    exact List.eq_nil_of_length_eq_zero (Nat.le_zero.mp hlength)
  | room hroom =>
    rw [List.take_of_length_le]
    rw [hinserted]
    exact hroom
  | @replaces front last hfull hhits hbefore =>
    rw [size, hhits, List.length_append, List.length_singleton] at hfull
    rw [hhits, List.length_append, List.length_singleton] at hlength
    rw [hhits, insertBy_append_singleton _ hbefore, List.take_left']
    rw [hinserted]
    omega
  | @refuses front last hfull hhits hbefore =>
    have hsorted : Sorted Hit.isBefore (front ++ [last]) := hhits ▸ hkeeps.sorted
    have hbehind : ∀ kept ∈ t.hits, hit.isBefore kept = false := hhits ▸
      Hit.ordersOn_isBefore.false_of_last trivial (fun _ _ => trivial) hsorted hbefore
    rw [insertBy_eq_append _ hbehind, List.take_left' (Nat.le_antisymm hlength hfull)]

/-- **One more hit.** -/
theorem Keeps.insert {t : TopHits} {seen : List Hit} (h : t.Keeps seen) (hit : Hit) :
    (t.insert hit).Keeps (seen ++ [hit]) := by
  rw [Keeps, capacity_insert, TopHits.insert, (t.takes_offer hit).hits_eq h, h, best, best,
    sortBy_append, List.foldl_cons, List.foldl_nil, take_insertBy_take]

/-- **The flag** says whether there is one hit more than before. -/
theorem offer_flag_iff (t : TopHits) (hit : Hit) :
    (t.offer hit).2 = true ↔ (t.offer hit).1.hits.count hit = t.hits.count hit + 1 := by
  have hcount : ∀ hits, (insertBy Hit.isBefore hit hits).count hit = hits.count hit + 1 := fun hits =>
    ((insertBy_perm Hit.isBefore hit hits).count_eq hit).trans List.count_cons_self
  rcases hoffer : t.offer hit with ⟨t', flag⟩
  have htakes := t.takes_offer hit
  rw [hoffer] at htakes
  cases htakes with
  | useless | refuses => simp
  | room => simp [hcount]
  | @replaces front last hfull hhits hbefore =>
    -- the hit that gives way is another one
    have hne : last ≠ hit := by
      rintro rfl
      exact Hit.not_isBefore_self last hbefore
    simp [hcount, hhits, hne]

/-- A hit that is not kept changes nothing. -/
theorem eq_of_offer_flag {t : TopHits} {hit : Hit} (h : (t.offer hit).2 = false) :
    (t.offer hit).1 = t := by
  rcases hoffer : t.offer hit with ⟨t', flag⟩
  have htakes := t.takes_offer hit
  rw [hoffer] at h htakes
  cases htakes with
  | useless | refuses => rfl
  | room | replaces => exact absurd h Bool.false_ne_true.symm

/-- **The hit to beat** is the worst of those kept. There is one just if there is no room left. -/
theorem Keeps.threshold_eq_some_iff {t : TopHits} {seen : List Hit} (h : t.Keeps seen) {worst : Hit} :
    t.threshold = some worst ↔
      t.size = t.capacity ∧ worst ∈ t.hits ∧ ∀ kept ∈ t.hits, ¬ worst.Outranks kept := by
  have hbehind : ∀ {front last}, t.hits = front ++ [last] → ∀ kept ∈ t.hits,
      ¬ last.Outranks kept := by
    intro front last hhits kept hkept
    have hsorted : Sorted Hit.isBefore (front ++ [last]) := hhits ▸ h.sorted
    rw [← Hit.isBefore_iff_outranks]
    rw [hhits] at hkept
    rcases List.mem_append.mp hkept with hkept | hkept
    · rw [(List.pairwise_append.mp hsorted).2.2 kept hkept last List.mem_cons_self]
      exact Bool.false_ne_true
    · rw [List.mem_singleton.mp hkept]
      exact Hit.not_isBefore_self last
  constructor
  · intro hthreshold
    obtain ⟨hfull, hlast⟩ : t.capacity ≤ t.size ∧ t.hits.getLast? = some worst := by
      simpa [threshold, isFull] using hthreshold
    obtain ⟨front, hhits⟩ := List.getLast?_eq_some_iff.mp hlast
    exact ⟨Nat.le_antisymm h.length_le hfull, List.mem_of_getLast? hlast, hbehind hhits⟩
  · rintro ⟨hsize, hmem, hworst⟩
    have hne : t.hits ≠ [] := List.ne_nil_of_mem hmem
    have hhits : t.hits = t.hits.dropLast ++ [t.hits.getLast hne] :=
      (List.dropLast_append_getLast hne).symm
    have hlast := hbehind hhits worst hmem
    have hworst := hworst _ (List.getLast_mem hne)
    rw [← Hit.isBefore_iff_outranks, Bool.not_eq_true] at hlast hworst
    rw [threshold_eq_last hsize.ge hhits, Hit.ordersOn_isBefore.total trivial trivial hlast hworst]

/-! ### All offers -/

/-- **All hits offered** one by one. -/
theorem Keeps.insertAll {t : TopHits} {seen : List Hit} (h : t.Keeps seen) (hits : List Hit) :
    (t.insertAll hits).Keeps (seen ++ hits) := by
  induction hits generalizing t seen with
  | nil => simpa [TopHits.insertAll] using h
  | cons hit hits ih =>
    have hrest := ih (h.insert hit)
    rwa [List.append_assoc, List.singleton_append] at hrest

theorem insertAll_append (t : TopHits) (hits more : List Hit) :
    t.insertAll (hits ++ more) = (t.insertAll hits).insertAll more := List.foldl_append

/-- Lists of hits are offered one after the other. -/
theorem foldl_insertAll {α : Type} (hits : α → List Hit) (items : List α) (t : TopHits) :
    items.foldl (fun t item => t.insertAll (hits item)) t = t.insertAll (items.flatMap hits) :=
  List.foldl_flatMap.symm

theorem capacity_insertAll (t : TopHits) (hits : List Hit) :
    (t.insertAll hits).capacity = t.capacity := by
  induction hits generalizing t with
  | nil => rfl
  | cons hit hits ih => exact (ih (t.insert hit)).trans (t.capacity_insert hit)

theorem hits_insertAll (capacity : Nat) (hits : List Hit) :
    ((empty capacity).insertAll hits).hits = best Hit.isBefore capacity hits := by
  have hkeeps := (keeps_empty capacity).insertAll hits
  rwa [Keeps, capacity_insertAll] at hkeeps

end TopHits

end FederatedSearch
