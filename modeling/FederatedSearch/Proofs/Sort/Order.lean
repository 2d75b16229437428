import FederatedSearch.Collector.FieldSort
import FederatedSearch.Proofs.Hit.TopHits
import Mathlib.Data.List.Forall2

/-!
# The order of sorted hits

A list of clauses compares hits clause by clause and breaks ties by relevance. Among hits whose keys
fit the clauses, that is, are of the kinds that the clauses read, this is a total order, and only a
hit itself is tied with it. Keys of different kinds count as equal, so it is not an order beyond
that.

Hence the first hits in a sort order are the best hits under it. The buffer of a group may be cut now
and then: the best hits of it and of what is to come stay the same.

## Main definitions

* `SortReading.Admits`, `Fits` — keys of the right kinds
* `SortedHit.isBefore` — the order as a comparison

## Main results

* `SortedHit.ordersOn_isBefore` — a strict total order
* `firstSorted_eq` — the first hits are the best
* `best_bufferSorted` — a hit for the buffer of a group
-/

namespace FederatedSearch

open Std

/-! ### Keys of one kind -/

/-- The key is of the kind that the reading yields. -/
def SortReading.Admits : SortReading → SortKey → Prop
  | text, .text _ => True
  | int _, .int _ => True
  | double _, .double _ => True
  | score, .double _ => True
  | _, _ => False

theorem SortReading.admits_missingKey (r : SortReading) : r.Admits r.missingKey := by
  cases r <;> trivial

theorem SortReading.admits_keyOf (r : SortReading) (score : Binary32) (value : Option FieldValue) :
    r.Admits (r.keyOf score value) := by
  cases r <;> trivial

/-- A comparison through a function. -/
theorem transCmp_comap {α β : Type} {compareBy : β → β → Ordering} (h : TransCmp compareBy)
    (f : α → β) : TransCmp fun a b => compareBy (f a) (f b) where
  eq_swap := h.eq_swap
  isLE_trans := h.isLE_trans

namespace SortKey

variable (order : SortOrder) (missing : MissingValue)

theorem transCmp_orient {α : Type} {compareBy : α → α → Ordering} [TransCmp compareBy] :
    TransCmp fun a b => orient order (compareBy a b) where
  eq_swap {a b} := by
    have hswap : compareBy a b = (compareBy b a).swap := OrientedCmp.eq_swap
    cases order <;> simp only [orient, hswap]
  isLE_trans {a b c} hab hbc := by
    have hswap : ∀ a b, (compareBy a b).swap = compareBy b a := fun _ _ => OrientedCmp.eq_swap.symm
    have htrans : ∀ {a b c}, (compareBy a b).isLE = true → (compareBy b c).isLE = true →
        (compareBy a c).isLE = true := TransCmp.isLE_trans
    cases order with
    | ascending => exact htrans hab hbc
    | descending =>
      simp only [orient, hswap] at hab hbc ⊢
      exact htrans hbc hab

theorem missingFirst_eq : missingFirst missing = .lt ∨ missingFirst missing = .gt := by
  rw [missingFirst]
  split
  · exact .inl rfl
  · exact .inr rfl

theorem compareUnder_swap (a b : SortKey) :
    a.compareUnder order missing b = (b.compareUnder order missing a).swap := by
  have htext : ∀ a b : String, orient order (compare a b) = (orient order (compare b a)).swap :=
    fun a b => (transCmp_orient order).eq_swap
  have hint : ∀ a b : Int, orient order (compare a b) = (orient order (compare b a)).swap :=
    fun a b => (transCmp_orient order).eq_swap
  have hdouble : ∀ a b : Binary64,
      orient order (a.compareTotal b) = (orient order (b.compareTotal a)).swap :=
    fun a b => (transCmp_orient order).eq_swap
  rcases a with (_ | a) | a | a <;> rcases b with (_ | b) | b | b <;>
    simp only [compareUnder, Ordering.swap_swap, Ordering.swap_eq]
  · exact htext a b
  · exact hint a.toInt b.toInt
  · exact hdouble a b

/-- Keys of one kind are in order. -/
theorem isLE_compareUnder_trans {r : SortReading} {a b c : SortKey} (ha : r.Admits a)
    (hb : r.Admits b) (hc : r.Admits c) (hab : (a.compareUnder order missing b).isLE = true)
    (hbc : (b.compareUnder order missing c).isLE = true) :
    (a.compareUnder order missing c).isLE = true := by
  have htext : ∀ {a b c : String}, (orient order (compare a b)).isLE = true →
      (orient order (compare b c)).isLE = true → (orient order (compare a c)).isLE = true :=
    (transCmp_orient order).isLE_trans
  have hint : ∀ {a b c : Int}, (orient order (compare a b)).isLE = true →
      (orient order (compare b c)).isLE = true → (orient order (compare a c)).isLE = true :=
    (transCmp_orient order).isLE_trans
  have hdouble : ∀ {a b c : Binary64}, (orient order (a.compareTotal b)).isLE = true →
      (orient order (b.compareTotal c)).isLE = true → (orient order (a.compareTotal c)).isLE = true :=
    (transCmp_orient order).isLE_trans
  rcases a with a | a | a <;> rcases b with b | b | b <;> rcases c with c | c | c <;>
    first | (cases r <;> contradiction) | skip
  · -- texts, where a missing one is on one side of all others
    rcases missingFirst_eq missing with hm | hm <;> cases a <;> cases b <;> cases c <;>
      simp only [compareUnder, hm] at hab hbc ⊢ <;> first | exact htext hab hbc | simp_all
  · exact hint hab hbc
  · exact hdouble hab hbc

end SortKey

/-! ### Lists of keys -/

/-- The keys are of the kinds that the clauses read. -/
def Fits (clauses : List SortClause) (keys : List SortKey) : Prop :=
  List.Forall₂ (fun c key => c.reading.Admits key) clauses keys

theorem compareKeys_swap (clauses : List SortClause) (as bs : List SortKey) :
    compareKeys clauses as bs = (compareKeys clauses bs as).swap := by
  induction clauses generalizing as bs with
  | nil => simp [compareKeys]
  | cons c clauses ih =>
    cases as with
    | nil => cases bs <;> simp [compareKeys]
    | cons a as =>
      cases bs with
      | nil => simp [compareKeys]
      | cons b bs =>
        simp only [compareKeys, Ordering.swap_then, ← ih, SortClause.compare]
        rw [SortKey.compareUnder_swap]

theorem transCmp_compareKeys (clauses : List SortClause) :
    TransCmp fun as bs : { keys // Fits clauses keys } => compareKeys clauses as.1 bs.1 := by
  induction clauses with
  | nil => exact { eq_swap := compareKeys_swap _ _ _, isLE_trans := by simp [compareKeys] }
  | cons c clauses ih =>
    have hfirst : TransCmp fun p q : { key // c.reading.Admits key } × { keys // Fits clauses keys } =>
        c.compare p.1.1 q.1.1 :=
      { eq_swap := SortKey.compareUnder_swap _ _ _ _
        isLE_trans := fun {p q r} => SortKey.isLE_compareUnder_trans _ _ p.1.2 q.1.2 r.1.2 }
    have hrest : TransCmp fun p q : { key // c.reading.Admits key } × { keys // Fits clauses keys } =>
        compareKeys clauses p.2.1 q.2.1 := transCmp_comap ih Prod.snd
    have hboth : TransCmp (compareLex
        (fun p q : { key // c.reading.Admits key } × { keys // Fits clauses keys } =>
          c.compare p.1.1 q.1.1) fun p q => compareKeys clauses p.2.1 q.2.1) := inferInstance
    refine { eq_swap := compareKeys_swap _ _ _, isLE_trans := ?_ }
    rintro ⟨_, hx⟩ ⟨_, hy⟩ ⟨_, hz⟩ hxy hyz
    cases hx with
    | cons ha has =>
      cases hy with
      | cons hb hbs =>
        cases hz with
        | cons hc hcs =>
          exact hboth.isLE_trans (a := (⟨_, ha⟩, ⟨_, has⟩)) (b := (⟨_, hb⟩, ⟨_, hbs⟩))
            (c := (⟨_, hc⟩, ⟨_, hcs⟩)) hxy hyz

/-! ### Sorted hits -/

namespace SortedHit

variable (clauses : List SortClause)

/-- Whether the first hit comes before the second one under the clauses. -/
def isBefore (a b : SortedHit) : Bool := compareSorted clauses a b == .lt

variable {clauses}

theorem isBefore_iff {a b : SortedHit} :
    a.isBefore clauses b = true ↔ compareSorted clauses a b = .lt := by
  simp [isBefore]

theorem compareSorted_swap (a b : SortedHit) :
    compareSorted clauses a b = (compareSorted clauses b a).swap := by
  rw [compareSorted, compareSorted, Ordering.swap_then, ← compareKeys_swap,
    ← Hit.compareRelevance_swap]

theorem transCmp_compareSorted :
    TransCmp fun a b : { x : SortedHit // Fits clauses x.keys } => compareSorted clauses a.1 b.1 := by
  have hkeys : TransCmp fun a b : { x : SortedHit // Fits clauses x.keys } =>
      compareKeys clauses a.1.keys b.1.keys :=
    transCmp_comap (transCmp_compareKeys clauses)
      fun x : { x : SortedHit // Fits clauses x.keys } => ⟨x.1.keys, x.2⟩
  have hhits : TransCmp fun a b : { x : SortedHit // Fits clauses x.keys } =>
      a.1.hit.compareRelevance b.1.hit :=
    transCmp_comap (inferInstanceAs (TransCmp Hit.compareRelevance))
      fun x : { x : SortedHit // Fits clauses x.keys } => x.1.hit
  exact inferInstanceAs (TransCmp (compareLex
    (fun a b : { x : SortedHit // Fits clauses x.keys } => compareKeys clauses a.1.keys b.1.keys)
    fun a b => a.1.hit.compareRelevance b.1.hit))

/-- **The order of sorted hits** is a strict total order on hits whose keys fit and are determined by
the hit. -/
theorem ordersOn_isBefore {p : SortedHit → Prop} (hfits : ∀ x, p x → Fits clauses x.keys)
    (hkeys : ∀ x y, p x → p y → x.hit = y.hit → x = y) : OrdersOn (isBefore clauses) p where
  asymm {a b} _ _ hab := by
    rw [isBefore, compareSorted_swap, isBefore_iff.mp hab]
    rfl
  trans {a b c} ha hb hc hab hbc := by
    have hlt := @TransCmp.lt_trans _ _ transCmp_compareSorted ⟨a, hfits a ha⟩ ⟨b, hfits b hb⟩
      ⟨c, hfits c hc⟩ (isBefore_iff.mp hab) (isBefore_iff.mp hbc)
    exact isBefore_iff.mpr hlt
  total {a b} ha hb hab hba := by
    have heq : compareSorted clauses a b = .eq := by
      rw [isBefore, beq_eq_false_iff_ne] at hab hba
      cases hcompare : compareSorted clauses a b with
      | eq => rfl
      | lt => exact absurd hcompare hab
      | gt => exact absurd (by rw [compareSorted_swap, hcompare]; rfl) hba
    exact hkeys a b ha hb (Hit.eq_of_compareRelevance (Ordering.then_eq_eq.mp heq).2)

end SortedHit

/-! ### Sorting keeps what there is -/

section Kept

variable (clauses : List SortClause)

end Kept

/-! ### The first hits -/

section First

variable {clauses : List SortClause} {p : SortedHit → Prop}
  (h : OrdersOn (SortedHit.isBefore clauses) p)
include h

/-- Sorted hits are kept with the last one first. -/
theorem reverse_insertSorted {hit : SortedHit} (hhit : p hit) {sorted : List SortedHit}
    (hmem : ∀ x ∈ sorted, p x) (hsorted : Sorted (SortedHit.isBefore clauses) sorted.reverse) :
    (insertSorted clauses hit sorted).reverse =
      insertBy (SortedHit.isBefore clauses) hit sorted.reverse := by
  induction sorted with
  | nil => rfl
  | cons last rest ih =>
    rw [List.reverse_cons] at hsorted ⊢
    rw [insertSorted]
    split
    · rename_i hlt
      rw [insertBy_append_singleton _ (SortedHit.isBefore_iff.mpr hlt), List.reverse_cons,
        ih (fun x hx => hmem x (List.mem_cons_of_mem _ hx)) (List.pairwise_append.mp hsorted).1]
    · rename_i hlt
      have hlast : SortedHit.isBefore clauses hit last = false := by
        rw [← Bool.not_eq_true, SortedHit.isBefore_iff]
        exact hlt
      have hall : ∀ x ∈ rest.reverse ++ [last], p x := by
        intro x hx
        exact hmem x (by simpa [or_comm] using hx)
      rw [insertBy_eq_append _ (h.false_of_last hhit hall hsorted hlast), List.reverse_cons,
        List.reverse_cons]

theorem sortHits_eq {hits : List SortedHit} (hhits : ∀ x ∈ hits, p x) :
    sortHits clauses hits = sortBy (SortedHit.isBefore clauses) hits := by
  have hloop : ∀ (hits done : List SortedHit), (∀ x ∈ hits, p x) → (∀ x ∈ done, p x) →
      Sorted (SortedHit.isBefore clauses) done.reverse →
        (hits.foldl (fun sorted hit => insertSorted clauses hit sorted) done).reverse =
          hits.foldl (fun sorted x => insertBy (SortedHit.isBefore clauses) x sorted) done.reverse := by
    intro hits
    induction hits with
    | nil => exact fun _ _ _ _ => rfl
    | cons hit hits ih =>
      intro done hhits hdone hsorted
      obtain ⟨hhit, hrest⟩ := List.forall_mem_cons.mp hhits
      have hreverse := reverse_insertSorted h hhit hdone hsorted
      have hdone' : ∀ x ∈ done.reverse, p x := fun x hx => hdone x (List.mem_reverse.mp hx)
      rw [List.foldl_cons, List.foldl_cons, ← hreverse]
      refine ih _ hrest (fun x hx => ?_) ?_
      · rw [← List.mem_reverse, hreverse, (insertBy_perm _ hit done.reverse).mem_iff] at hx
        rcases List.mem_cons.mp hx with rfl | hx
        · exact hhit
        · exact hdone' x hx
      · rw [hreverse]
        exact h.sorted_insertBy hhit hdone' hsorted
  exact hloop hits [] hhits nofun List.Pairwise.nil

/-- **The first hits** are the best. -/
theorem firstSorted_eq (limit : Nat) {hits : List SortedHit} (hhits : ∀ x ∈ hits, p x) :
    firstSorted clauses limit hits = best (SortedHit.isBefore clauses) limit hits := by
  rw [firstSorted, sortHits_eq h hhits, best]

theorem mem_bufferSorted {limit : Nat} {buffer : List SortedHit} {hit : SortedHit}
    (hbuffer : ∀ x ∈ buffer, p x) (hhit : p hit) :
    ∀ x ∈ bufferSorted clauses limit buffer hit, p x := by
  have hall : ∀ x ∈ buffer ++ [hit], p x :=
    List.forall_mem_append.mpr ⟨hbuffer, List.forall_mem_singleton.mpr hhit⟩
  intro x hx
  rw [bufferSorted] at hx
  split at hx
  · rw [firstSorted_eq h limit hall] at hx
    exact hall x (mem_of_mem_best _ hx)
  · exact hall x hx

theorem best_bufferSorted (limit : Nat) {buffer : List SortedHit} {hit : SortedHit}
    (hbuffer : ∀ x ∈ buffer, p x) (hhit : p hit) :
    best (SortedHit.isBefore clauses) limit (bufferSorted clauses limit buffer hit) =
      best (SortedHit.isBefore clauses) limit (buffer ++ [hit]) := by
  have hall : ∀ x ∈ buffer ++ [hit], p x :=
    List.forall_mem_append.mpr ⟨hbuffer, List.forall_mem_singleton.mpr hhit⟩
  rw [bufferSorted]
  split
  · have hcut := h.best_append limit hall []
    rw [List.append_nil, List.append_nil] at hcut
    show best _ limit (firstSorted clauses limit (buffer ++ [hit])) = _
    rw [firstSorted_eq h limit hall, hcut]
  · rfl

end First

end FederatedSearch
