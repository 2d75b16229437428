import FederatedSearch.Keys.KeySet
import FederatedSearch.Proofs.Keys.Membership

/-!
# The algebra of key sets

`KeySet.meet`, `KeySet.union` and `KeySet.negate` are the Boolean operations, key by key and for
every key, whichever of the sets are complements and however wide their bits are.

## Implementation notes

Only `meet` is exact. `intersect` writes a complement out as far as the bits of either side reach,
which is enough when the other side is plain and loses the rest when both are complements.

Spelling a complement out leaves key 0 aside, which is right if key 0 is clear on the other side.
Hence `KeySet.Proper`, which is only asked for where key 0 is looked at.

## Main results

* `contains_meet`, `contains_union`, `contains_negate`
* `inverted_meet`, `inverted_union` — when the result is a complement
* `Proper.meet`, `Proper.union` — key 0 stays out of the bits
-/

namespace FederatedSearch

namespace KeySet

/-- Key 0 is clear in the bits, so that it belongs to the set just if the set is a complement. -/
def Proper (s : KeySet) : Prop := s.bits.Proper

@[simp] theorem contains_plain (bits : KeyBits) (key : Nat) :
    (plain bits).contains key = bits.contains key := by
  simp [contains, plain]

@[simp] theorem contains_complement (bits : KeyBits) (key : Nat) :
    (complement bits).contains key = !bits.contains key := by
  simp [contains, complement]

@[simp] theorem inverted_plain (bits : KeyBits) : (plain bits).inverted = false := rfl

@[simp] theorem inverted_complement (bits : KeyBits) : (complement bits).inverted = true := rfl

theorem contains_noKey {s : KeySet} (h : s.Proper) : s.contains noKey = s.inverted := by
  have hbits : s.bits.contains noKey = false := h
  simp [contains, hbits]

/-- **Negation** is the complement. -/
@[simp] theorem contains_negate (s : KeySet) (key : Nat) :
    s.negate.contains key = !s.contains key := by
  cases hs : s.inverted <;> simp [contains, negate, hs]

@[simp] theorem inverted_negate (s : KeySet) : s.negate.inverted = !s.inverted := rfl

theorem Proper.negate {s : KeySet} (h : s.Proper) : s.negate.Proper := h

/-! ### Intersection -/

@[simp] theorem inverted_intersect (a b : KeySet) : (a.intersect b).inverted = false := rfl

/-- A plain intersection is exact as far as the bits of either side reach, and everywhere if one
side is plain. -/
theorem contains_intersect (a : KeySet) {b : KeySet} {key : Nat} (hb : key ≠ noKey ∨ b.Proper)
    (h : a.inverted = false ∨ b.inverted = false) :
    (a.intersect b).contains key = (a.contains key && b.contains key) := by
  have hroom := KeyBits.le_capacity_ensureCapacity a.bits b.bits.capacity
  cases ha : a.inverted <;> cases hi : b.inverted
  · simp [intersect, contains, ha, hi, plain]
  · simp [intersect, contains, ha, hi, plain]
  · -- the left complement is spelled out, at least as far as the right bits reach
    have hflip : ((a.bits.ensureCapacity b.bits.capacity).flip.contains key && b.bits.contains key)
        = (!a.bits.contains key && b.bits.contains key) := by
      by_cases hkey : key < b.bits.capacity
      · by_cases h0 : key = noKey
        · have hclear : b.bits.contains noKey = false := hb.resolve_left (not_not_intro h0)
          simp [h0, hclear]
        · simp [KeyBits.contains_flip, h0, Nat.lt_of_lt_of_le hkey hroom]
      · simp [KeyBits.contains_eq_false_of_capacity_le (Nat.not_lt.mp hkey)]
    simpa [intersect, contains, ha, hi, plain] using hflip
  · simp [ha, hi] at h

@[simp] theorem inverted_meet (a b : KeySet) :
    (a.meet b).inverted = (a.inverted && b.inverted) := by
  cases ha : a.inverted <;> cases hb : b.inverted <;> simp [meet, ha, hb]

/-- **Meeting** is the intersection, for every key. -/
theorem contains_meet (a : KeySet) {b : KeySet} {key : Nat} (hb : key ≠ noKey ∨ b.Proper) :
    (a.meet b).contains key = (a.contains key && b.contains key) := by
  by_cases h : (a.inverted && b.inverted) = true
  · obtain ⟨ha, hb⟩ := Bool.and_eq_true_iff.mp h
    simp [meet, contains, ha, hb, complement]
  · have hplain : a.inverted = false ∨ b.inverted = false := by
      rw [Bool.and_eq_true_iff, not_and_or, Bool.not_eq_true, Bool.not_eq_true] at h
      exact h
    rw [meet, if_neg h, contains_intersect a hb hplain]

theorem Proper.intersect {a b : KeySet} (ha : a.Proper) : (a.intersect b).Proper := by
  have hleft : (if a.inverted then (a.bits.ensureCapacity b.bits.capacity).flip
      else a.bits.ensureCapacity b.bits.capacity).Proper := by
    split
    · exact KeyBits.proper_flip _
    · exact KeyBits.Proper.ensureCapacity ha _
  rw [KeySet.intersect, Proper]
  split
  · exact hleft.diff _
  · exact hleft.inter _

theorem Proper.meet {a b : KeySet} (ha : a.Proper) (hb : b.Proper) : (a.meet b).Proper := by
  rw [KeySet.meet]
  split
  · exact KeyBits.Proper.union ha hb
  · exact ha.intersect

/-! ### Union -/

@[simp] theorem inverted_union (a b : KeySet) :
    (a.union b).inverted = (a.inverted || b.inverted) := by
  cases ha : a.inverted <;> cases hb : b.inverted <;> simp [union, ha, hb]

/-- **Uniting** is the union, for every key. -/
@[simp] theorem contains_union (a b : KeySet) (key : Nat) :
    (a.union b).contains key = (a.contains key || b.contains key) := by
  cases ha : a.inverted <;> cases hb : b.inverted <;>
    simp [union, contains, ha, hb, plain, complement, Bool.or_comm]

theorem Proper.union {a b : KeySet} (ha : a.Proper) (hb : b.Proper) : (a.union b).Proper := by
  cases hia : a.inverted <;> cases hib : b.inverted <;> simp only [KeySet.union, hia, hib]
  · exact KeyBits.Proper.union ha hb
  · exact KeyBits.Proper.diff hb _
  · exact KeyBits.Proper.diff ha _
  · exact KeyBits.Proper.inter ha _

/-! ### Equality -/

theorem beq_iff {a b : KeySet} :
    (a == b) = true ↔ (a.bits == b.bits) = true ∧ a.inverted = b.inverted := by
  simp [BEq.beq]

theorem beq_refl (a : KeySet) : (a == a) = true := beq_iff.mpr ⟨KeyBits.beq_iff.mpr rfl, rfl⟩

theorem beq_symm {a b : KeySet} (h : (a == b) = true) : (b == a) = true := by
  obtain ⟨hbits, hinv⟩ := beq_iff.mp h
  exact beq_iff.mpr ⟨KeyBits.beq_iff.mpr (KeyBits.beq_iff.mp hbits).symm, hinv.symm⟩

/-- Equal sets hold the same keys. -/
theorem contains_eq_of_beq {a b : KeySet} (h : (a == b) = true) (key : Nat) :
    a.contains key = b.contains key := by
  obtain ⟨hbits, hinv⟩ := beq_iff.mp h
  rw [contains, contains, KeyBits.contains_eq_of_beq hbits, hinv]

end KeySet

end FederatedSearch
