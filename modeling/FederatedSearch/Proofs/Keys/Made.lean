import FederatedSearch.Proofs.Keys.Algebra

/-!
# Key sets as they are made

The bits of a key set come about by the operations on bitsets, in any order and number. Whatever
they were, key 0 stays clear (`KeyBits.Made.proper`), so that nothing more has to be known of a set to
say what its combinations with other sets contain.

## Implementation notes

`KeySet.intersect` is the one operation that writes two complements out. It does so within the width
to which the left bits have been grown, which is at least the wider of both sides and may be more,
since bits grow by a quarter at a time. So below the wider side every key is right, and beyond it a
key may be missing, but no key is there that should not be.

## Main definitions

* `KeyBits.Made` — the bitsets that the operations make

## Main results

* `contains_intersect_complements` — two complements, written out
* `combinations_exact` — all combinations of two sets
-/

namespace FederatedSearch

namespace KeyBits

/-- The bitsets that the operations make, starting from new ones. -/
inductive Made : KeyBits → Prop
  | empty : Made empty
  | withCapacity (bits : Nat) : Made (withCapacity bits)
  | ensureCapacity {s : KeyBits} (h : Made s) (bits : Nat) : Made (s.ensureCapacity bits)
  | insert {s t : KeyBits} {key : JoinKey} {isNew : Bool} (h : Made s)
      (hinsert : s.insert? key = .ok (t, isNew)) : Made t
  | union {s t : KeyBits} (hs : Made s) (ht : Made t) : Made (s.union t)
  | inter {s t : KeyBits} (hs : Made s) (ht : Made t) : Made (s.inter t)
  | diff {s t : KeyBits} (hs : Made s) (ht : Made t) : Made (s.diff t)
  | flip {s : KeyBits} (h : Made s) : Made s.flip

theorem Proper.insert? {s t : KeyBits} (h : s.Proper) {key : JoinKey} {isNew : Bool}
    (hinsert : s.insert? key = .ok (t, isNew)) : t.Proper := by
  rw [KeyBits.insert?] at hinsert
  split at hinsert
  · obtain ⟨rfl, -⟩ := Prod.mk.inj (Except.ok.inj hinsert)
    exact h
  · rename_i hkey
    split at hinsert
    · cases hinsert
    · obtain ⟨rfl, -⟩ := Prod.mk.inj (Except.ok.inj hinsert)
      exact h.set hkey

/-- **Key 0 stays clear** in whatever the operations make. -/
theorem Made.proper {s : KeyBits} (h : s.Made) : s.Proper := by
  induction h with
  | empty => exact proper_empty
  | withCapacity bits => exact contains_withCapacity bits noKey
  | ensureCapacity _ bits ih => exact ih.ensureCapacity bits
  | insert _ hinsert ih => exact ih.insert? hinsert
  | union _ _ hs ht => exact hs.union ht
  | inter _ _ hs _ => exact hs.inter _
  | diff _ _ hs _ => exact hs.diff _
  | flip => exact proper_flip _

theorem Made.insertAll? {s t : KeyBits} (h : s.Made) {keys : List JoinKey}
    (hinsert : s.insertAll? keys = .ok t) : t.Made := by
  induction keys generalizing s with
  | nil => exact Except.ok.inj hinsert ▸ h
  | cons key keys ih =>
    rw [KeyBits.insertAll?, List.foldlM_cons] at hinsert
    rcases hkey : s.insert? key with failure | ⟨u, isNew⟩
    · rw [hkey] at hinsert
      cases hinsert
    · rw [hkey] at hinsert
      exact ih (h.insert hkey) hinsert

theorem capacity_le_ensureCapacity (s : KeyBits) (bits : Nat) :
    s.capacity ≤ (s.ensureCapacity bits).capacity := by
  have := le_grownLength_left s.words.size ((bits + 63) / 64)
  simp only [capacity, size_ensureCapacity]
  omega

end KeyBits

namespace KeySet

/-- **Two complements, written out**, keep to the width of the left bits once they have been grown. -/
theorem contains_intersect_complements {a b : KeySet} (ha : a.inverted = true) (hb : b.inverted = true)
    (key : Nat) :
    (a.intersect b).contains key =
      (decide (key < (a.bits.ensureCapacity b.bits.capacity).capacity) && decide (key ≠ noKey) &&
        (a.contains key && b.contains key)) := by
  have hwritten : a.intersect b =
      plain ((a.bits.ensureCapacity b.bits.capacity).flip.diff b.bits) := by
    simp [intersect, ha, hb]
  rw [hwritten, contains_plain, KeyBits.contains_diff, KeyBits.contains_flip,
    KeyBits.contains_ensureCapacity, contains, contains, ha, hb, Bool.bne_true, Bool.bne_true,
    Bool.and_assoc]

/-- Both sides fit into the bits that a plain intersection is written to. -/
theorem lt_capacity_of_lt_max {a b : KeySet} {key : Nat}
    (h : key < max a.bits.capacity b.bits.capacity) :
    key < (a.bits.ensureCapacity b.bits.capacity).capacity := by
  have hleft := KeyBits.capacity_le_ensureCapacity a.bits b.bits.capacity
  have hright := KeyBits.le_capacity_ensureCapacity a.bits b.bits.capacity
  omega

/-- **The combinations of two key sets are exact**, whichever of them are complements and however
wide they are. Meeting and uniting are so for every key. A plain intersection is so for every key but
0, and when both sides are complements for those below the wider side; it never holds a key that is
not on both sides. Of the left side nothing has to be known, since key 0 is looked up in the bits of
the right side only. -/
theorem combinations_exact (a : KeySet) {b : KeySet} (hb : b.bits.Made) (key : Nat) :
    (a.meet b).contains key = (a.contains key && b.contains key) ∧
      (a.union b).contains key = (a.contains key || b.contains key) ∧
      (a.intersect b).inverted = false ∧
      (key ≠ noKey → a.inverted = false ∨ b.inverted = false ∨
          key < max a.bits.capacity b.bits.capacity →
        (a.intersect b).contains key = (a.contains key && b.contains key)) ∧
      ((a.intersect b).contains key = true → a.contains key = true ∧ b.contains key = true) := by
  have hproper : b.Proper := hb.proper
  refine ⟨contains_meet a (.inr hproper), contains_union a b key, rfl, fun hkey hwidth => ?_,
    fun hmem => ?_⟩
  · rcases hwidth with ha | hb | hlt
    · exact contains_intersect a (.inl hkey) (.inl ha)
    · exact contains_intersect a (.inl hkey) (.inr hb)
    · by_cases hboth : a.inverted = true ∧ b.inverted = true
      · rw [contains_intersect_complements hboth.1 hboth.2]
        simp [lt_capacity_of_lt_max hlt, hkey]
      · refine contains_intersect a (.inl hkey) ?_
        simpa only [not_and_or, Bool.not_eq_true] using hboth
  · by_cases hboth : a.inverted = true ∧ b.inverted = true
    · rw [contains_intersect_complements hboth.1 hboth.2] at hmem
      simpa using (Bool.and_eq_true_iff.mp hmem).2
    · have hplain : a.inverted = false ∨ b.inverted = false := by
        simpa only [not_and_or, Bool.not_eq_true] using hboth
      rw [contains_intersect a (.inr hproper) hplain] at hmem
      exact Bool.and_eq_true_iff.mp hmem

/-- Two complements that are written out. Key 131 is beyond the narrower side, and 5000 is beyond both,
so that only meeting keeps it. -/
theorem combinations_exact_beyondNarrow :
    let a := complement ((KeyBits.empty.set 1).set 70)
    let b := complement ((KeyBits.empty.set 2).set 130)
    b.bits.Made ∧ 131 < max a.bits.capacity b.bits.capacity ∧
      (a.intersect b).contains 131 = (a.contains 131 && b.contains 131) ∧
      (a.intersect b).contains 131 = true ∧ (a.intersect b).contains 130 = false ∧
      (a.meet b).contains 5000 = true ∧ (a.intersect b).contains 5000 = false := by
  intro a b
  have hfirst : KeyBits.empty.insert? 2 = .ok (KeyBits.empty.set 2, true) :=
    KeyBits.insert?_eq_ok (by decide) (by decide)
  have hsecond : (KeyBits.empty.set 2).insert? 130 = .ok ((KeyBits.empty.set 2).set 130, true) := by
    rw [KeyBits.insert?_eq_ok (by decide) (by decide), KeyBits.contains_set, KeyBits.contains_empty]
    rfl
  have hmade : b.bits.Made := (KeyBits.Made.empty.insert hfirst).insert hsecond
  have hwidth : 131 < max a.bits.capacity b.bits.capacity := by decide
  have hexact := (combinations_exact a hmade 131).2.2.2.1 (by decide) (.inr (.inr hwidth))
  exact ⟨hmade, hwidth, hexact, by decide, by decide, by decide, by decide⟩

end KeySet

end FederatedSearch
