import FederatedSearch.Keys.KeyBits
import Mathlib.Data.List.Induction

/-!
# Membership in bitsets of keys

Everything that is proved about bitsets of keys goes through `KeyBits.contains`. This module says
what each operation does to it, and nobody looks at words afterwards.

## Implementation notes

A word beyond the capacity reads as zero, so the statements need no bounds: growing a set does not
show, and an operation that is as wide as its left side only loses keys that the left side does not
have. The one operation whose answer depends on the capacity is `flip`.

Key 0 is a bit like any other in the words. That it stays clear is a property of the sets that the
operations build, `KeyBits.Proper`.

## Main results

* `contains_set`, `contains_union`, `contains_inter`, `contains_diff`, `contains_flip`
* `insert?_eq_ok`, `insert?_eq_error` — what becomes of an insertion
* `contains_eq_of_beq` — equal sets hold the same keys
-/

namespace FederatedSearch

namespace KeyBits

/-! ### Words -/

@[simp] theorem testBit_or (v w : UInt64) (b : Nat) :
    testBit (v ||| w) b = (testBit v b || testBit w b) := by
  simp [testBit]

@[simp] theorem testBit_and (v w : UInt64) (b : Nat) :
    testBit (v &&& w) b = (testBit v b && testBit w b) := by
  simp [testBit]

@[simp] theorem testBit_zero (b : Nat) : testBit 0 b = false := by
  simp [testBit]

theorem testBit_not (w : UInt64) {b : Nat} (hb : b < 64) : testBit (~~~w) b = !testBit w b := by
  simp [testBit, hb]

theorem testBit_one_shiftLeft {b c : Nat} (hb : b < 64) :
    testBit (1 <<< UInt64.ofNat b) c = decide (c = b) := by
  rw [Bool.eq_iff_iff]
  simp [testBit]
  omega

/-- Only bit 0 of the word 1 is set. -/
theorem testBit_one (b : Nat) : testBit 1 b = decide (b = 0) := by
  rw [Bool.eq_iff_iff]
  simp [testBit]

theorem word_eq_zero {s : KeyBits} {i : Nat} (h : s.words.size ≤ i) : s.word i = 0 := by
  simp [word, Array.getD, Nat.not_lt.mpr h]

theorem word_of_lt {s : KeyBits} {i : Nat} (h : i < s.words.size) : s.word i = s.words[i] := by
  simp [word, Array.getD, h]

theorem word_mapIdx (s : KeyBits) (f : Nat → UInt64 → UInt64) (i : Nat) :
    (KeyBits.mk (s.words.mapIdx f)).word i = if i < s.words.size then f i (s.word i) else 0 := by
  split
  · rename_i h
    rw [word_of_lt (by simpa using h), word_of_lt h, Array.getElem_mapIdx]
  · rename_i h
    exact word_eq_zero (by simpa using h)

/-! ### Growth -/

@[simp] theorem size_ensureCapacity (s : KeyBits) (bits : Nat) :
    (s.ensureCapacity bits).words.size = grownLength s.words.size ((bits + 63) / 64) := by
  have := le_grownLength_left s.words.size ((bits + 63) / 64)
  simp only [ensureCapacity, Array.size_append, Array.size_replicate]
  omega

@[simp] theorem word_ensureCapacity (s : KeyBits) (bits i : Nat) :
    (s.ensureCapacity bits).word i = s.word i := by
  rcases Nat.lt_or_ge i s.words.size with h | h
  · have hgrown : i < (s.ensureCapacity bits).words.size := by
      rw [size_ensureCapacity]
      exact Nat.lt_of_lt_of_le h (le_grownLength_left _ _)
    rw [word_of_lt hgrown, word_of_lt h]
    simp [ensureCapacity, Array.getElem_append_left, h]
  · rw [word_eq_zero h]
    rcases Nat.lt_or_ge i (s.ensureCapacity bits).words.size with hg | hg
    · rw [word_of_lt hg]
      simp [ensureCapacity, Array.getElem_append_right, h]
    · exact word_eq_zero hg

@[simp] theorem contains_ensureCapacity (s : KeyBits) (bits key : Nat) :
    (s.ensureCapacity bits).contains key = s.contains key := by
  simp [contains]

/-- A set holds no key beyond its capacity. -/
theorem contains_eq_false_of_capacity_le {s : KeyBits} {key : Nat} (h : s.capacity ≤ key) :
    s.contains key = false := by
  have hsize : s.words.size ≤ key / 64 := by
    simp only [capacity] at h
    omega
  simp [contains, word_eq_zero hsize]

theorem le_capacity_ensureCapacity (s : KeyBits) (bits : Nat) :
    bits ≤ (s.ensureCapacity bits).capacity := by
  have := le_grownLength_right s.words.size ((bits + 63) / 64)
  simp only [capacity, size_ensureCapacity]
  omega

@[simp] theorem contains_empty (key : Nat) : empty.contains key = false := by
  simp [contains, word, empty]

@[simp] theorem contains_withCapacity (bits key : Nat) : (withCapacity bits).contains key = false := by
  have hword : (withCapacity bits).word (key / 64) = 0 := by
    rcases Nat.lt_or_ge (key / 64) (withCapacity bits).words.size with h | h
    · rw [word_of_lt h]
      simp [withCapacity]
    · exact word_eq_zero h
  simp [contains, hword]

/-! ### Adding a key -/

theorem word_modify (s : KeyBits) (i j : Nat) (f : UInt64 → UInt64) (hi : i < s.words.size) :
    (KeyBits.mk (s.words.modify i f)).word j = if j = i then f (s.word i) else s.word j := by
  rcases Nat.lt_or_ge j s.words.size with h | h
  · rw [word_of_lt (by simpa using h)]
    simp only [Array.getElem_modify]
    by_cases hji : j = i
    · subst hji
      simp [word_of_lt h]
    · simp [Ne.symm hji, hji, word_of_lt h]
  · have hji : j ≠ i := by omega
    rw [word_eq_zero (by simpa using h), if_neg hji, word_eq_zero h]

/-- **Adding a key** adds this key and no other. -/
@[simp] theorem contains_set (s : KeyBits) (key other : Nat) :
    (s.set key).contains other = (decide (other = key) || s.contains other) := by
  have hroom : key / 64 < (s.ensureCapacity (key + 1)).words.size := by
    have h := le_capacity_ensureCapacity s (key + 1)
    rw [capacity] at h
    omega
  have hbit : key % 64 < 64 := Nat.mod_lt _ (by decide)
  simp only [contains, set, word_modify _ _ _ _ hroom, word_ensureCapacity]
  by_cases hword : other / 64 = key / 64
  · have hkey : decide (other % 64 = key % 64) = decide (other = key) := by
      rw [decide_eq_decide]
      omega
    rw [if_pos hword, testBit_or, testBit_one_shiftLeft hbit, hkey, hword, Bool.or_comm]
  · have hne : other ≠ key := fun h => hword (by rw [h])
    simp [hword, hne]

theorem insert?_eq_ok {s : KeyBits} {key : Nat} (h0 : key ≠ noKey) (hmax : key ≤ maxKey) :
    s.insert? key = .ok (s.set key, !s.contains key) := by
  simp [insert?, h0, Nat.not_lt.mpr hmax]

theorem insert?_eq_error {s : KeyBits} {key : Nat} (hmax : maxKey < key) :
    s.insert? key = .error (.keyTooLarge (.bitset key maxKey)) := by
  have h0 : key ≠ noKey := Nat.ne_zero_of_lt hmax
  simp [insert?, h0, hmax]

theorem insertAll?_cons_eq_ok {s : KeyBits} {key : Nat} {keys : List JoinKey} (h0 : key ≠ noKey)
    (hmax : key ≤ maxKey) : s.insertAll? (key :: keys) = (s.set key).insertAll? keys := by
  rw [insertAll?, List.foldlM_cons, insert?_eq_ok h0 hmax]
  rfl

/-- Adding admissible keys one by one adds them all. -/
theorem insertAll?_eq_ok (keys : List JoinKey) (h : ∀ key ∈ keys, key ≠ noKey ∧ key ≤ maxKey)
    (s : KeyBits) : ∃ t, s.insertAll? keys = .ok t ∧
      ∀ key : Nat, t.contains key = (keys.contains key || s.contains key) := by
  induction keys generalizing s with
  | nil => exact ⟨s, rfl, by simp⟩
  | cons key keys ih =>
    obtain ⟨h0, hmax⟩ := h key List.mem_cons_self
    obtain ⟨t, ht, hcontains⟩ := ih (fun other hmem => h other (List.mem_cons_of_mem _ hmem)) (s.set key)
    refine ⟨t, by rw [insertAll?_cons_eq_ok h0 hmax, ht], fun other => ?_⟩
    rw [hcontains, contains_set, List.contains_cons]
    simp only [Bool.beq_eq_decide_eq, Bool.or_assoc, Bool.or_left_comm]

/-! ### Set operations -/

@[simp] theorem contains_union (s t : KeyBits) (key : Nat) :
    (s.union t).contains key = (s.contains key || t.contains key) := by
  rw [union, contains, word_mapIdx]
  split
  · simp [contains]
  · rename_i h
    have hcap : (s.ensureCapacity t.capacity).capacity ≤ key := by
      simp only [capacity] at h ⊢
      omega
    have hs : s.contains key = false := by
      rw [← contains_ensureCapacity s t.capacity]
      exact contains_eq_false_of_capacity_le hcap
    have ht : t.contains key = false :=
      contains_eq_false_of_capacity_le (Nat.le_trans (le_capacity_ensureCapacity s t.capacity) hcap)
    simp [hs, ht]

@[simp] theorem contains_inter (s t : KeyBits) (key : Nat) :
    (s.inter t).contains key = (s.contains key && t.contains key) := by
  rw [inter, contains, word_mapIdx]
  split
  · simp [contains]
  · rename_i h
    simp [contains, word_eq_zero (Nat.not_lt.mp h)]

@[simp] theorem contains_diff (s t : KeyBits) (key : Nat) :
    (s.diff t).contains key = (s.contains key && !t.contains key) := by
  have hbit : key % 64 < 64 := Nat.mod_lt _ (by decide)
  rw [diff, contains, word_mapIdx]
  split
  · simp [contains, testBit_not _ hbit]
  · rename_i h
    simp [contains, word_eq_zero (Nat.not_lt.mp h)]

/-- Flipping keeps to the capacity and leaves key 0 out. -/
theorem contains_flip (s : KeyBits) (key : Nat) :
    s.flip.contains key = (decide (key < s.capacity) && decide (key ≠ noKey) && !s.contains key) := by
  have hbit : key % 64 < 64 := Nat.mod_lt _ (by decide)
  have hcap : key / 64 < s.words.size ↔ key < s.capacity := by
    simp only [capacity]
    omega
  rw [flip, contains, word_mapIdx]
  split
  · rename_i h
    have hlt : key < s.capacity := hcap.mp h
    by_cases hword : key / 64 = 0
    · have hzero : key % 64 = 0 ↔ key = noKey := by
        change key % 64 = 0 ↔ key = 0
        omega
      simp [hword, contains, testBit_not _ hbit, testBit_one, hlt, hzero, Bool.and_comm]
    · have hne : key ≠ noKey := by
        rintro rfl
        exact hword rfl
      simp [hword, contains, testBit_not _ hbit, hlt, hne]
  · rename_i h
    have hlt : ¬ key < s.capacity := fun hlt => h (hcap.mpr hlt)
    simp [hlt]

/-! ### Key 0 -/

/-- Key 0 is clear, as it is in every set built by the operations. -/
def Proper (s : KeyBits) : Prop := s.contains noKey = false

theorem proper_empty : Proper empty := contains_empty _

theorem Proper.set {s : KeyBits} (h : s.Proper) {key : Nat} (hkey : key ≠ noKey) :
    (s.set key).Proper := by
  simp only [Proper] at h ⊢
  simp [h, Ne.symm hkey]

theorem Proper.union {s t : KeyBits} (hs : s.Proper) (ht : t.Proper) : (s.union t).Proper := by
  simp only [Proper] at *
  simp [hs, ht]

theorem Proper.inter {s : KeyBits} (hs : s.Proper) (t : KeyBits) : (s.inter t).Proper := by
  simp only [Proper] at *
  simp [hs]

theorem Proper.diff {s : KeyBits} (hs : s.Proper) (t : KeyBits) : (s.diff t).Proper := by
  simp only [Proper] at *
  simp [hs]

theorem Proper.ensureCapacity {s : KeyBits} (hs : s.Proper) (bits : Nat) :
    (s.ensureCapacity bits).Proper := by
  simpa [Proper] using hs

theorem proper_flip (s : KeyBits) : s.flip.Proper := by
  simp [Proper, contains_flip]

/-! ### Equality -/

/-- Two sets hold the same keys. They may differ in their capacities. -/
def Alike (s t : KeyBits) : Prop := ∀ key, s.contains key = t.contains key

private theorem getD_dropTrailing (l : List UInt64) (i : Nat) :
    ((l.reverse.dropWhile (· == 0)).reverse).getD i 0 = l.getD i 0 := by
  induction l using List.reverseRecOn with
  | nil => simp
  | append_singleton l w ih =>
    rw [List.reverse_concat]
    by_cases hw : w = 0
    · rw [List.dropWhile_cons_of_pos (by simp [hw]), ih]
      simp only [List.getD_eq_getElem?_getD]
      rcases Nat.lt_trichotomy i l.length with h | h | h
      · rw [List.getElem?_append_left h]
      · simp [h, hw]
      · rw [List.getElem?_eq_none (Nat.le_of_lt h),
          List.getElem?_eq_none (by simpa using Nat.succ_le_of_lt h)]
    · rw [List.dropWhile_cons_of_neg (by simpa using hw)]
      simp

theorem word_eq_getD_significant (s : KeyBits) (i : Nat) : s.word i = s.significant.getD i 0 := by
  rw [significant, getD_dropTrailing, word, Array.getD_eq_getD_getElem?, ← Array.getElem?_toList,
    List.getD_eq_getElem?_getD]

theorem beq_iff {s t : KeyBits} : (s == t) = true ↔ s.significant = t.significant :=
  beq_iff_eq (α := List UInt64)

/-- Equal sets hold the same keys, whatever their capacities. -/
theorem contains_eq_of_beq {s t : KeyBits} (h : (s == t) = true) (key : Nat) :
    s.contains key = t.contains key := by
  have hsig : s.significant = t.significant := beq_iff.mp h
  rw [contains, contains, word_eq_getD_significant, word_eq_getD_significant, hsig]

end KeyBits

end FederatedSearch
