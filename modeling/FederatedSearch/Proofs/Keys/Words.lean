import FederatedSearch.Proofs.Keys.Membership
import Mathlib.Algebra.Group.Nat.Defs
import Mathlib.Data.List.Sort

/-!
# The keys of a word

A word is listed by taking its lowest bit off again and again: `w &&& (w - 1)` is `w` without that bit.
This is so because `w` is an odd multiple of a power of two, so that `w - 1` has the same bits above the
power and not the power itself. Hence all bits are listed, each once and in ascending order.

## Main results

* `KeyBits.testBit_and_sub_one` — one step
* `KeyBits.wordKeys_eq` — the keys of a word are its bits
* `KeyBits.eq_of_testBit` — a word is known by its bits
-/

namespace FederatedSearch

namespace KeyBits

/-! ### The lowest bit -/

theorem testBit_lowestBit {w : UInt64} (hw : w ≠ 0) : testBit w (lowestBit w) = true :=
  BitVec.getLsbD_true_ctz_of_ne_zero fun hzero => hw (UInt64.toBitVec_inj.mp hzero)

theorem lowestBit_lt {w : UInt64} (hw : w ≠ 0) : lowestBit w < 64 := by
  by_contra hge
  have hbit := testBit_lowestBit hw
  rw [testBit, BitVec.getLsbD_of_ge _ _ (Nat.le_of_not_lt hge)] at hbit
  exact Bool.false_ne_true hbit

theorem testBit_of_lt_lowestBit {w : UInt64} {b : Nat} (hb : b < lowestBit w) : testBit w b = false :=
  BitVec.getLsbD_false_of_lt_ctz hb

theorem testBit_iff (w : UInt64) (b : Nat) : testBit w b = true ↔ w.toNat / 2 ^ b % 2 = 1 := by
  rw [← decide_eq_true_iff (p := w.toNat / 2 ^ b % 2 = 1), ← Nat.testBit_eq_decide_div_mod_eq]
  rfl

theorem toNat_sub_one {w : UInt64} (hw : w ≠ 0) : (w - 1).toNat = w.toNat - 1 := by
  have hpos : 1 ≤ w.toNat := Nat.pos_of_ne_zero fun hzero => hw (UInt64.toNat_inj.mp hzero)
  exact UInt64.toNat_sub_of_le w 1 (UInt64.le_iff_toNat_le.mpr hpos)

/-- One less than an odd multiple of a power of two is an even multiple of it, and a rest. -/
theorem pred_div_two_pow {least m : Nat} : (2 ^ least * (2 * m + 1) - 1) / 2 ^ least = 2 * m := by
  have hpos : 0 < 2 ^ least := Nat.two_pow_pos least
  have hpred : 2 ^ least * (2 * m + 1) - 1 = 2 ^ least * (2 * m) + (2 ^ least - 1) := by
    rw [Nat.mul_add, Nat.mul_one]
    omega
  rw [hpred, Nat.mul_add_div hpos, Nat.div_eq_of_lt (Nat.sub_lt hpos (by decide)), Nat.add_zero]

/-- Below its lowest bit a word is zero. -/
theorem exists_odd_multiple {w : UInt64} (hw : w ≠ 0) :
    ∃ m, w.toNat = 2 ^ lowestBit w * (2 * m + 1) := by
  have hodd := (testBit_iff w _).mp (testBit_lowestBit hw)
  have hmod : w.toNat % 2 ^ lowestBit w = 0 := by
    refine Nat.eq_of_testBit_eq fun b => ?_
    rw [Nat.testBit_mod_two_pow, Nat.zero_testBit]
    by_cases hb : b < lowestBit w
    · rw [show w.toNat.testBit b = false from testBit_of_lt_lowestBit hb, Bool.and_false]
    · simp [hb]
  refine ⟨w.toNat / 2 ^ lowestBit w / 2, ?_⟩
  have hquot : 2 * (w.toNat / 2 ^ lowestBit w / 2) + 1 = w.toNat / 2 ^ lowestBit w := by omega
  rw [hquot]
  exact (Nat.mul_div_cancel' (Nat.dvd_of_mod_eq_zero hmod)).symm

/-- **Without its lowest bit** a word has all other bits. -/
theorem testBit_and_sub_one {w : UInt64} (hw : w ≠ 0) (b : Nat) :
    testBit (w &&& (w - 1)) b = true ↔ testBit w b = true ∧ b ≠ lowestBit w := by
  rw [testBit_and, Bool.and_eq_true]
  refine and_congr_right fun hbit => ?_
  obtain ⟨m, hm⟩ := exists_odd_multiple hw
  rcases Nat.lt_or_ge b (lowestBit w) with hlt | hge
  · rw [testBit_of_lt_lowestBit hlt] at hbit
    cases hbit
  · obtain ⟨k, rfl⟩ := Nat.exists_eq_add_of_le hge
    rw [testBit_iff, Nat.pow_add, ← Nat.div_div_eq_div_mul] at hbit ⊢
    rw [hm, Nat.mul_div_cancel_left _ (Nat.two_pow_pos _)] at hbit
    rw [toNat_sub_one hw, hm, pred_div_two_pow]
    cases k with
    | zero => simp
    | succ k =>
      refine iff_of_true ?_ (by omega)
      have hhalf : (2 * m + 1) / 2 = 2 * m / 2 := by omega
      rwa [Nat.pow_succ', ← Nat.div_div_eq_div_mul, ← hhalf, Nat.div_div_eq_div_mul, ← Nat.pow_succ']

/-! ### All bits -/

/-- The bits of a word are its lowest one and then those of the rest. -/
theorem bits_eq_cons {w : UInt64} (hw : w ≠ 0) :
    (List.range 64).filter (testBit w) =
      lowestBit w :: (List.range 64).filter (testBit (w &&& (w - 1))) := by
  have hascending : ∀ v, ((List.range 64).filter (testBit v)).Pairwise (· < ·) := fun v =>
    List.pairwise_lt_range.filter _
  have hlowest : ∀ b ∈ (List.range 64).filter (testBit (w &&& (w - 1))), lowestBit w < b := by
    intro b hb
    obtain ⟨hbit, hne⟩ := (testBit_and_sub_one hw b).mp (List.mem_filter.mp hb).2
    refine Nat.lt_of_le_of_ne (Nat.le_of_not_lt fun hlt => ?_) (Ne.symm hne)
    rw [testBit_of_lt_lowestBit hlt] at hbit
    exact Bool.false_ne_true hbit
  refine List.Pairwise.eq_of_mem_iff (hascending w)
    (List.pairwise_cons.mpr ⟨hlowest, hascending _⟩) fun b => ?_
  rw [List.mem_cons, List.mem_filter, List.mem_filter, testBit_and_sub_one hw, List.mem_range]
  by_cases hb : b = lowestBit w
  · subst hb
    exact iff_of_true ⟨lowestBit_lt hw, testBit_lowestBit hw⟩ (.inl rfl)
  · simp [hb]

/-- Taken off one after the other, the bits of a word are all found, in order. -/
theorem takeKeys_eq (i : Nat) {w : UInt64} {count : Nat}
    (h : ((List.range 64).filter (testBit w)).length ≤ count) :
    takeKeys i count w = ((List.range 64).filter (testBit w)).map (64 * i + ·) := by
  induction count generalizing w with
  | zero =>
    rw [List.length_eq_zero_iff.mp (Nat.le_zero.mp h)]
    rfl
  | succ count ih =>
    rw [takeKeys]
    split
    · rename_i hzero
      simp [hzero]
    · rename_i hw
      rw [bits_eq_cons hw, List.length_cons] at h
      rw [bits_eq_cons hw, List.map_cons, ih (Nat.le_of_succ_le_succ h)]

theorem wordKeys_eq (i : Nat) (w : UInt64) :
    wordKeys i w = ((List.range 64).filter (testBit w)).map (64 * i + ·) :=
  takeKeys_eq i ((List.length_filter_le _ _).trans_eq List.length_range)

theorem mem_wordKeys {i : Nat} {w : UInt64} {key : Nat} :
    key ∈ wordKeys i w ↔ key / 64 = i ∧ testBit w (key % 64) = true := by
  simp only [wordKeys_eq, List.mem_map, List.mem_filter, List.mem_range]
  constructor
  · rintro ⟨b, ⟨hb, hbit⟩, rfl⟩
    have hword : (64 * i + b) / 64 = i := by omega
    have hplace : (64 * i + b) % 64 = b := by omega
    exact ⟨hword, hplace.symm ▸ hbit⟩
  · rintro ⟨rfl, hbit⟩
    exact ⟨key % 64, ⟨Nat.mod_lt _ (by decide), hbit⟩, Nat.div_add_mod key 64⟩

theorem pairwise_wordKeys (i : Nat) (w : UInt64) : (wordKeys i w).Pairwise (· < ·) := by
  rw [wordKeys_eq]
  refine List.pairwise_map.mpr (List.Pairwise.filter _ (List.pairwise_lt_range.imp ?_))
  exact fun hlt => Nat.add_lt_add_left hlt _

theorem length_wordKeys (i : Nat) (w : UInt64) :
    (wordKeys i w).length = if w = 0 then 0 else (List.range 64).countP (testBit w) := by
  rw [wordKeys_eq, List.length_map, ← List.countP_eq_length_filter]
  split
  · rename_i hzero
    simp [hzero]
  · rfl

/-- A word is known by its bits. -/
theorem eq_of_testBit {v w : UInt64} (h : ∀ b < 64, testBit v b = testBit w b) : v = w :=
  UInt64.toBitVec_inj.mp (BitVec.eq_of_getLsbD_eq h)

theorem testBit_word (s : KeyBits) (i : Nat) {b : Nat} (hb : b < 64) :
    testBit (s.word i) b = s.contains (64 * i + b) := by
  have hword : (64 * i + b) / 64 = i := by omega
  have hplace : (64 * i + b) % 64 = b := by omega
  rw [contains, hword, hplace]

end KeyBits

end FederatedSearch
