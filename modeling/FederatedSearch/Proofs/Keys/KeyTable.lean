import FederatedSearch.Keys.KeyTable
import Mathlib.Data.List.Forall2

/-!
# What tables hold

A table that has been filled by recording holds, for each key, the first value that was recorded for
it. So it looks keys up as one does in the list of what was recorded, and a merge of tables in the
list of all that was recorded in the one table after the other.

## Main definitions

* `KeyTable.Records` — a table looks keys up as a list does

## Main results

* `Records.record`, `Records.fill`, `Records.mergeAll`
* `lookup_map_value` — the same list with other values
-/

namespace FederatedSearch

namespace KeyTable

variable {α : Type}

/-! ### Slots -/

theorem get?_eq_getElem? (t : KeyTable α) (key : JoinKey) : t.get? key = (t.slots[key]?).join := by
  rw [get?, Array.getD_eq_getD_getElem?]
  cases t.slots[key]? <;> rfl

theorem get?_eq_none {t : KeyTable α} {key : JoinKey} (h : t.slots.size ≤ key) :
    t.get? key = none := by
  rw [get?_eq_getElem?, Array.getElem?_eq_none h, Option.join_none]

theorem size_extend (t : KeyTable α) (length : Nat) :
    (t.extend length).slots.size = max t.slots.size length := by
  rw [extend, Array.size_append, Array.size_replicate]
  omega

theorem get?_extend (t : KeyTable α) (length : Nat) (key : JoinKey) :
    (t.extend length).get? key = t.get? key := by
  rw [get?_eq_getElem?, get?_eq_getElem?]
  show ((t.slots ++ Array.replicate (length - t.slots.size) none)[key]?).join = _
  rw [Array.getElem?_append]
  split
  · rfl
  · rename_i h
    rw [Array.getElem?_eq_none (Nat.not_lt.mp h), Array.getElem?_replicate]
    split <;> rfl

theorem get?_empty (key : JoinKey) : (empty : KeyTable α).get? key = none := get?_eq_none (Nat.zero_le _)

theorem get?_record (t : KeyTable α) (key other : JoinKey) (value : α) :
    (t.record key value).get? other =
      if other = key then (t.get? key).or (some value) else t.get? other := by
  have hroom : key < (t.extend (grownLength t.slots.size (key + 1))).slots.size := by
    rw [size_extend]
    exact Nat.lt_of_lt_of_le (le_grownLength_right t.slots.size (key + 1)) (Nat.le_max_right _ _)
  rw [← get?_extend t (grownLength t.slots.size (key + 1)) key,
    ← get?_extend t (grownLength t.slots.size (key + 1)) other, record]
  simp only [get?_eq_getElem?, Array.getElem?_modify]
  by_cases hother : other = key
  · subst hother
    simp [Array.getElem?_eq_getElem hroom]
  · simp [hother, Ne.symm hother]

theorem get?_fill (t other : KeyTable α) (key : JoinKey) :
    (t.fill other).get? key = (t.get? key).or (other.get? key) := by
  rw [← get?_extend t other.slots.size key, fill]
  rcases Nat.lt_or_ge key (t.extend other.slots.size).slots.size with h | h
  · simp [get?_eq_getElem? ⟨_⟩, Array.getElem?_eq_getElem h]
  · have hother : other.slots.size ≤ key := by
      rw [size_extend] at h
      omega
    rw [get?_eq_none (t := ⟨_⟩) (by simpa using h), get?_eq_none h, get?_eq_none hother]
    rfl

/-! ### What was recorded -/

/-- Looking up values that have been mapped. -/
theorem lookup_map_value {β : Type} (f : α → β) (items : List (JoinKey × α)) (key : JoinKey) :
    (items.map fun item => (item.1, f item.2)).lookup key = (items.lookup key).map f := by
  induction items with
  | nil => rfl
  | cons item rest ih =>
    rw [List.map_cons, List.lookup_cons, List.lookup_cons]
    split
    · rfl
    · exact ih

/-- The table looks keys up as the list does, where the first entry for a key counts. -/
def Records (t : KeyTable α) (items : List (JoinKey × α)) : Prop :=
  ∀ key, t.get? key = items.lookup key

theorem records_empty : (empty : KeyTable α).Records [] := get?_empty

variable {t other : KeyTable α} {items more : List (JoinKey × α)}

theorem Records.record (h : t.Records items) (key : JoinKey) (value : α) :
    (t.record key value).Records (items ++ [(key, value)]) := by
  intro other
  rw [get?_record, List.lookup_append, h, h]
  by_cases hother : other = key
  · subst hother
    simp
  · rw [if_neg hother, List.lookup_cons, beq_false_of_ne hother, List.lookup_nil, Option.or_none]

theorem Records.fill (h : t.Records items) (hother : other.Records more) :
    (t.fill other).Records (items ++ more) := by
  intro key
  rw [get?_fill, List.lookup_append, h, hother]

/-- **A merge** looks keys up in the first table, then in the next one, and so on. -/
theorem Records.mergeAll {groups : List (List (JoinKey × α))} {tables : List (KeyTable α)}
    (h : List.Forall₂ (fun items t => Records t items) groups tables) :
    (mergeAll tables).Records groups.flatten := by
  have hall : ∀ {t : KeyTable α} {items}, t.Records items →
      (tables.foldl KeyTable.fill t).Records (items ++ groups.flatten) := by
    induction h with
    | nil =>
      intro t items ht
      simpa using ht
    | cons hfirst _ ih =>
      intro t items ht
      rw [List.flatten_cons, ← List.append_assoc]
      exact ih (ht.fill hfirst)
  exact hall records_empty

end KeyTable

end FederatedSearch
