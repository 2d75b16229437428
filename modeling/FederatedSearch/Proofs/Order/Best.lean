import Mathlib.Data.List.Sort

/-!
# The best of a list

The best `k` items of a list are the first `k` of its items in order. Which items come in which
order or in which groups does not matter: one may take the best `k` of each group and then the best
`k` of those.

The order is given by a strict comparison `before`. It has to be a strict total order only on the
items at hand, so that it may well leave other items tied.

## Main definitions

* `insertBy`, `sortBy` — insertion sort, where an item goes behind the items tied with it
* `best` — the first items in order
* `OrdersOn` — a comparison that is a strict total order on some items
* `FirstOf` — what the best items are, without a way to find them

## Main results

* `OrdersOn.best_perm` — the order of the items does not matter
* `best_append` — of the items seen so far only the best matter
* `OrdersOn.best_flatten` — the best of the best of each group
* `OrdersOn.firstOf_iff_eq_best` — the first items are the best
-/

namespace FederatedSearch

variable {α : Type} (before : α → α → Bool)

/-- The first items, at most `k`, of all items put in order. -/
def FirstOf (precedes : α → α → Prop) (k : Nat) (items page : List α) : Prop :=
  ∃ sorted : List α, sorted.Perm items ∧ (sorted.Pairwise fun x y => ¬ precedes y x) ∧
    page = sorted.take k

/-- Put an item in front of the first item that it comes before. -/
def insertBy (x : α) : List α → List α
  | [] => [x]
  | y :: rest => if before x y then x :: y :: rest else y :: insertBy x rest

/-- Sort items, with tied items in the order they come in. -/
def sortBy (items : List α) : List α := items.foldl (fun sorted x => insertBy before x sorted) []

/-- The best items, at most `k`. -/
def best (k : Nat) (items : List α) : List α := (sortBy before items).take k

/-! ### Insertion -/

theorem insertBy_perm (x : α) (items : List α) : (insertBy before x items).Perm (x :: items) := by
  induction items with
  | nil => exact .refl _
  | cons y rest ih =>
    rw [insertBy]
    split
    · exact .refl _
    · exact (ih.cons y).trans (List.Perm.swap x y rest)

theorem foldl_insertBy_perm (items sorted : List α) :
    (items.foldl (fun sorted x => insertBy before x sorted) sorted).Perm (sorted ++ items) := by
  induction items generalizing sorted with
  | nil => simp
  | cons x items ih =>
    rw [List.foldl_cons]
    refine (ih _).trans ?_
    have hinsert := (insertBy_perm before x sorted).append_right items
    exact hinsert.trans List.perm_middle.symm

theorem sortBy_perm (items : List α) : (sortBy before items).Perm items :=
  foldl_insertBy_perm before items []

@[simp] theorem length_sortBy (items : List α) : (sortBy before items).length = items.length :=
  (sortBy_perm before items).length_eq

theorem sortBy_append (items more : List α) :
    sortBy before (items ++ more) =
      more.foldl (fun sorted x => insertBy before x sorted) (sortBy before items) := by
  rw [sortBy, List.foldl_append, ← sortBy]

/-- An item that comes before none of the others goes to the end. -/
theorem insertBy_eq_append {x : α} {items : List α} (h : ∀ y ∈ items, before x y = false) :
    insertBy before x items = items ++ [x] := by
  induction items with
  | nil => rfl
  | cons y rest ih =>
    have hy := h y List.mem_cons_self
    have hrest := ih fun z hz => h z (List.mem_cons_of_mem _ hz)
    simp [insertBy, hy, hrest]

/-- An item that comes before the last one leaves it at the end. -/
theorem insertBy_append_singleton {x last : α} (h : before x last = true) (items : List α) :
    insertBy before x (items ++ [last]) = insertBy before x items ++ [last] := by
  induction items with
  | nil => simp [insertBy, h]
  | cons y rest ih =>
    rw [List.cons_append, insertBy, insertBy, ih]
    split <;> rfl

/-- What is cut off stays cut off. -/
theorem take_insertBy_take (k : Nat) (x : α) (items : List α) :
    (insertBy before x (items.take k)).take k = (insertBy before x items).take k := by
  induction items generalizing k with
  | nil => simp
  | cons y rest ih =>
    cases k with
    | zero => simp
    | succ k =>
      rw [List.take_succ_cons, insertBy, insertBy]
      split
      · cases k with
        | zero => rfl
        | succ k => simp [List.take_take]
      · rw [List.take_succ_cons, List.take_succ_cons, ih]

theorem take_foldl_insertBy (k : Nat) {sorted sorted' : List α}
    (h : sorted.take k = sorted'.take k) (items : List α) :
    (items.foldl (fun sorted x => insertBy before x sorted) sorted).take k =
      (items.foldl (fun sorted x => insertBy before x sorted) sorted').take k := by
  induction items generalizing sorted sorted' with
  | nil => exact h
  | cons x items ih =>
    refine ih ?_
    rw [← take_insertBy_take, h, take_insertBy_take]

theorem sortBy_map {β : Type} {before' : β → β → Bool} (f : α → β)
    (h : ∀ x y, before' (f x) (f y) = before x y) (items : List α) :
    sortBy before' (items.map f) = (sortBy before items).map f := by
  have hinsert : ∀ x (sorted : List α),
      insertBy before' (f x) (sorted.map f) = (insertBy before x sorted).map f := by
    intro x sorted
    induction sorted with
    | nil => rfl
    | cons y rest ih =>
      rw [List.map_cons, insertBy, insertBy, h, ih]
      split <;> rfl
  have hloop : ∀ (items sorted : List α),
      items.foldl (fun sorted x => insertBy before' (f x) sorted) (sorted.map f) =
        (items.foldl (fun sorted x => insertBy before x sorted) sorted).map f := by
    intro items
    induction items with
    | nil => exact fun _ => rfl
    | cons x items ih =>
      intro sorted
      rw [List.foldl_cons, hinsert, ih, List.foldl_cons]
  rw [sortBy, List.foldl_map]
  exact hloop items []

theorem mem_of_mem_best {k : Nat} {items : List α} {x : α} (hx : x ∈ best before k items) :
    x ∈ items :=
  (sortBy_perm before items).mem_iff.mp (List.mem_of_mem_take hx)

/-! ### Sorted lists -/

/-- No item comes before one that stands in front of it. -/
def Sorted (items : List α) : Prop := items.Pairwise fun x y => before y x = false

theorem foldl_insertBy_of_sorted {done items : List α} (h : Sorted before (done ++ items)) :
    items.foldl (fun sorted x => insertBy before x sorted) done = done ++ items := by
  induction items generalizing done with
  | nil => simp
  | cons x items ih =>
    have hx : ∀ y ∈ done, before x y = false := by
      intro y hy
      exact (List.pairwise_append.mp h).2.2 y hy x List.mem_cons_self
    rw [List.foldl_cons, insertBy_eq_append before hx, ih (by simpa using h)]
    simp

theorem sortBy_of_sorted {items : List α} (h : Sorted before items) : sortBy before items = items :=
  foldl_insertBy_of_sorted before (by simpa using h)

/-- On some items, the comparison is a strict total order. -/
structure OrdersOn (p : α → Prop) : Prop where
  asymm : ∀ {x y}, p x → p y → before x y = true → before y x = false
  trans : ∀ {x y z}, p x → p y → p z → before x y = true → before y z = true → before x z = true
  total : ∀ {x y}, p x → p y → before x y = false → before y x = false → x = y

namespace OrdersOn

variable {before} {p : α → Prop} (h : OrdersOn before p)
include h

/-- Items are in order as something is that tells them apart. -/
theorem comap {β : Type} {q : β → Prop} {f : β → α} (hf : ∀ x, q x → p (f x))
    (hinj : ∀ x y, q x → q y → f x = f y → x = y) : OrdersOn (fun x y => before (f x) (f y)) q where
  asymm hx hy := h.asymm (hf _ hx) (hf _ hy)
  trans hx hy hz := h.trans (hf _ hx) (hf _ hy) (hf _ hz)
  total hx hy hxy hyx := hinj _ _ hx hy (h.total (hf _ hx) (hf _ hy) hxy hyx)

/-- Of two items one of which comes first, a third one is on one side. -/
theorem false_of_trans {x y z : α} (hx : p x) (hy : p y) (hz : p z) (hxy : before x y = true)
    (hzy : before z y = false) : before z x = false := by
  by_contra hzx
  rw [Bool.not_eq_false] at hzx
  rw [h.trans hz hx hy hzx hxy] at hzy
  exact absurd hzy (by simp)

/-- What does not come before the last item of a sorted list comes before none. -/
theorem false_of_last {front : List α} {last x : α} (hx : p x) (hmem : ∀ y ∈ front ++ [last], p y)
    (hsorted : Sorted before (front ++ [last])) (hlast : before x last = false) :
    ∀ y ∈ front ++ [last], before x y = false := by
  obtain ⟨hfront, hplast⟩ := List.forall_mem_append.mp hmem
  have hl : p last := hplast last (List.mem_singleton_self _)
  intro y hy
  rcases List.mem_append.mp hy with hy | hy
  · have hback : before last y = false :=
      (List.pairwise_append.mp hsorted).2.2 y hy last (List.mem_singleton_self _)
    by_contra hbeats
    rw [Bool.not_eq_false] at hbeats
    have hsame : x = last :=
      h.total hx hl hlast (h.false_of_trans hx (hfront y hy) hl hbeats hback)
    rw [hsame, hback] at hbeats
    exact Bool.false_ne_true hbeats
  · rwa [List.mem_singleton.mp hy]

theorem sorted_insertBy {x : α} {items : List α} (hx : p x) (hitems : ∀ y ∈ items, p y)
    (hsorted : Sorted before items) : Sorted before (insertBy before x items) := by
  induction items with
  | nil => simp [Sorted, insertBy]
  | cons y rest ih =>
    obtain ⟨hy, hrest⟩ := List.forall_mem_cons.mp hitems
    obtain ⟨hfront, hbehind⟩ := List.pairwise_cons.mp hsorted
    rw [insertBy]
    split
    · rename_i hxy
      refine List.pairwise_cons.mpr ⟨fun z hz => ?_, hsorted⟩
      rcases List.mem_cons.mp hz with rfl | hz
      · exact h.asymm hx hy hxy
      · exact h.false_of_trans hx hy (hrest z hz) hxy (hfront z hz)
    · rename_i hxy
      refine List.pairwise_cons.mpr ⟨fun z hz => ?_, ih hrest hbehind⟩
      rcases List.mem_cons.mp ((insertBy_perm before x rest).mem_iff.mp hz) with rfl | hz
      · simpa using hxy
      · exact hfront z hz

theorem sorted_foldl_insertBy {items sorted : List α} (hitems : ∀ x ∈ items, p x)
    (hmem : ∀ x ∈ sorted, p x) (hsorted : Sorted before sorted) :
    Sorted before (items.foldl (fun sorted x => insertBy before x sorted) sorted) := by
  induction items generalizing sorted with
  | nil => exact hsorted
  | cons x items ih =>
    obtain ⟨hx, hrest⟩ := List.forall_mem_cons.mp hitems
    refine ih hrest (fun y hy => ?_) (h.sorted_insertBy hx hmem hsorted)
    rcases List.mem_cons.mp ((insertBy_perm before x sorted).mem_iff.mp hy) with rfl | hy
    · exact hx
    · exact hmem y hy

theorem sorted_sortBy {items : List α} (hitems : ∀ x ∈ items, p x) :
    Sorted before (sortBy before items) :=
  h.sorted_foldl_insertBy hitems nofun List.Pairwise.nil

/-- Different items come one strictly before the other. -/
theorem pairwise_sortBy {items : List α} (hitems : ∀ x ∈ items, p x) (hnodup : items.Nodup) :
    (sortBy before items).Pairwise fun x y => before x y = true := by
  have hperm := sortBy_perm before items
  have hdifferent : (sortBy before items).Pairwise (· ≠ ·) := hperm.nodup_iff.mpr hnodup
  refine ((h.sorted_sortBy hitems).and hdifferent).imp_of_mem fun {x y} hx hy hxy => ?_
  by_contra hnot
  rw [Bool.not_eq_true] at hnot
  exact hxy.2 (h.total (hitems x (hperm.mem_iff.mp hx)) (hitems y (hperm.mem_iff.mp hy)) hnot hxy.1)

/-- There is one order only. -/
theorem eq_of_sorted {items items' : List α} (hitems : ∀ x ∈ items, p x)
    (hperm : items.Perm items') (hsorted : Sorted before items) (hsorted' : Sorted before items') :
    items = items' := by
  refine hperm.eq_of_pairwise (fun x y hx hy hxy hyx => ?_) hsorted hsorted'
  exact h.total (hitems x hx) (hitems y (hperm.mem_iff.mpr hy)) hyx hxy

theorem sortBy_eq_of_perm {items items' : List α} (hitems : ∀ x ∈ items, p x)
    (hperm : items.Perm items') : sortBy before items = sortBy before items' := by
  have hsort := (sortBy_perm before items).trans (hperm.trans (sortBy_perm before items').symm)
  refine h.eq_of_sorted (fun x hx => ?_) hsort (h.sorted_sortBy hitems) (h.sorted_sortBy ?_)
  · exact hitems x ((sortBy_perm before items).mem_iff.mp hx)
  · exact fun x hx => hitems x (hperm.mem_iff.mpr hx)

/-- **The order of the items does not matter.** -/
theorem best_perm (k : Nat) {items items' : List α} (hitems : ∀ x ∈ items, p x)
    (hperm : items.Perm items') : best before k items = best before k items' := by
  rw [best, best, h.sortBy_eq_of_perm hitems hperm]

/-- **Of the items seen so far only the best matter.** -/
theorem best_append (k : Nat) {items : List α} (hitems : ∀ x ∈ items, p x) (more : List α) :
    best before k (best before k items ++ more) = best before k (items ++ more) := by
  have hsorted : Sorted before (best before k items) :=
    (h.sorted_sortBy hitems).sublist (List.take_sublist _ _)
  show (sortBy before (best before k items ++ more)).take k = (sortBy before (items ++ more)).take k
  rw [sortBy_append, sortBy_append, sortBy_of_sorted before hsorted]
  refine take_foldl_insertBy before k ?_ more
  rw [best, List.take_take, min_self]

/-- **The best of the best of each group.** -/
theorem best_flatten (k : Nat) {groups : List (List α)} (hitems : ∀ x ∈ groups.flatten, p x) :
    best before k (groups.map (best before k)).flatten = best before k groups.flatten := by
  induction groups with
  | nil => rfl
  | cons group groups ih =>
    rw [List.flatten_cons, List.forall_mem_append] at hitems
    obtain ⟨hgroup, hgroups⟩ := hitems
    have hall : ∀ x ∈ (groups.map (best before k)).flatten, p x := by
      intro x hx
      obtain ⟨items, hmem, hx⟩ := List.mem_flatten.mp hx
      obtain ⟨other, hother, rfl⟩ := List.mem_map.mp hmem
      exact hgroups x (List.mem_flatten.mpr ⟨other, hother, mem_of_mem_best before hx⟩)
    have hrest : ∀ x ∈ (groups.map (best before k)).flatten ++ group, p x :=
      List.forall_mem_append.mpr ⟨hall, hgroup⟩
    calc best before k (best before k group ++ (groups.map (best before k)).flatten)
        = best before k (group ++ (groups.map (best before k)).flatten) := h.best_append k hgroup _
      _ = best before k ((groups.map (best before k)).flatten ++ group) :=
        (h.best_perm k hrest List.perm_append_comm).symm
      _ = best before k (best before k (groups.map (best before k)).flatten ++ group) :=
        (h.best_append k hall _).symm
      _ = best before k (best before k groups.flatten ++ group) := by rw [ih hgroups]
      _ = best before k (groups.flatten ++ group) := h.best_append k hgroups _
      _ = best before k (group ++ groups.flatten) :=
        h.best_perm k (List.forall_mem_append.mpr ⟨hgroups, hgroup⟩) List.perm_append_comm

/-- **The first items** are the best. -/
theorem firstOf_iff_eq_best {precedes : α → α → Prop} {k : Nat} {items page : List α}
    (hprecedes : ∀ x y, p x → p y → (before x y = true ↔ precedes x y)) (hitems : ∀ x ∈ items, p x) :
    FirstOf precedes k items page ↔ page = best before k items := by
  have hpairwise : ∀ sorted : List α, sorted.Perm items →
      ((sorted.Pairwise fun x y => ¬ precedes y x) ↔ Sorted before sorted) := by
    intro sorted hperm
    refine List.Pairwise.iff_of_mem fun {x y} hx hy => ?_
    rw [← hprecedes y x (hitems y (hperm.mem_iff.mp hy)) (hitems x (hperm.mem_iff.mp hx)),
      Bool.not_eq_true]
  constructor
  · rintro ⟨sorted, hperm, hsorted, rfl⟩
    rw [best, h.eq_of_sorted (fun x hx => hitems x (hperm.mem_iff.mp hx))
      (hperm.trans (sortBy_perm before items).symm) ((hpairwise sorted hperm).mp hsorted)
      (h.sorted_sortBy hitems)]
  · rintro rfl
    have hperm := sortBy_perm before items
    exact ⟨_, hperm, (hpairwise _ hperm).mpr (h.sorted_sortBy hitems), rfl⟩

end OrdersOn

end FederatedSearch
