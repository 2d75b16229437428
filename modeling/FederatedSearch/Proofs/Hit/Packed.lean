import FederatedSearch.Proofs.Hit.BestPerKey
import FederatedSearch.Proofs.Hit.TopHits
import Mathlib.Algebra.Ring.Nat

/-!
# Packed hits are in relevance order

A hit packs its score above its document number, the score as its rank in the total order and the
number counted down. So a greater word is a more relevant hit, and no hit is lost in packing, as long
as its number fits into the lower half. The record of a key is therefore the most relevant of the
hits offered for the key.

Nor is any word left over: every word is the packed form of one hit, also where its upper half is the
rank of a NaN. Packing is thus an isomorphism of orders.

## Main definitions

* `Hit.Packable` — the hits whose document numbers fit

## Main results

* `Binary32.rank_lt_rank_iff`, `Binary32.ofRank_rank`, `Binary32.rank_ofRank` — ranks are the total
  order
* `Hit.unpack_pack`, `Hit.word_pack_lt_iff` — packing keeps hits and their order
* `PackedHit.pack_unpack` — every word is a packed hit
* `Hit.pack_orders_all` — the isomorphism
* `BestPerKey.IsBest.unpack` — a record is the most relevant hit
-/

namespace FederatedSearch

/-! ### Ranks -/

namespace Binary32

theorem isNegative_iff {x : Binary32} : x.isNegative = true ↔ 2 ^ 31 ≤ x.bits.toNat := by
  rw [isNegative, decide_eq_true_iff]
  exact UInt32.le_iff_toNat_le

/-- Below the sign bit a number takes in its place. -/
private theorem or_signBit {n : Nat} (h : n < 2 ^ 31) : n ||| 2 ^ 31 = 2 ^ 31 + n := by
  rw [Nat.or_comm, ← Nat.mul_one (2 ^ 31), ← Nat.two_pow_add_eq_or_of_lt h 1]

theorem toNat_rank_of_negative {x : Binary32} (h : x.isNegative = true) :
    x.rank.toNat = 2 ^ 32 - 1 - x.bits.toNat := by
  rw [rank, if_pos h]
  exact UInt32.toNat_not x.bits

theorem toNat_rank_of_not_negative {x : Binary32} (h : x.isNegative = false) :
    x.rank.toNat = 2 ^ 31 + x.bits.toNat := by
  have hbits : x.bits.toNat < 2 ^ 31 := by
    rw [← Nat.not_le, ← isNegative_iff, h]
    exact Bool.false_ne_true
  rw [rank, h, if_neg Bool.false_ne_true, UInt32.toNat_or]
  exact or_signBit hbits

/-- **Ranks** are in the total order. -/
theorem rank_lt_rank_iff {x y : Binary32} :
    x.rank.toNat < y.rank.toNat ↔ x.compareTotal y = .lt := by
  have hx := x.bits.toNat_lt
  have hy := y.bits.toNat_lt
  rw [compareTotal_eq, compareOn, compare_lt_iff_lt, level, level, signedLevel, signedLevel]
  cases hsx : x.isNegative <;> cases hsy : y.isNegative
  · rw [toNat_rank_of_not_negative hsx, toNat_rank_of_not_negative hsy]
    simp
  · have hybits := isNegative_iff.mp hsy
    rw [toNat_rank_of_not_negative hsx, toNat_rank_of_negative hsy]
    simp only [Bool.false_eq_true, if_false, if_true]
    omega
  · have hxbits := isNegative_iff.mp hsx
    rw [toNat_rank_of_negative hsx, toNat_rank_of_not_negative hsy]
    simp only [Bool.false_eq_true, if_false, if_true]
    omega
  · rw [toNat_rank_of_negative hsx, toNat_rank_of_negative hsy]
    simp only [if_true]
    omega

theorem rank_inj {x y : Binary32} (h : x.rank = y.rank) : x = y := by
  refine eq_of_compareTotal ?_
  have hlt : ¬ x.compareTotal y = .lt := by
    rw [← rank_lt_rank_iff, h]
    exact Nat.lt_irrefl _
  have hgt : ¬ x.compareTotal y = .gt := by
    rw [Std.OrientedCmp.gt_iff_lt, ← rank_lt_rank_iff, h]
    exact Nat.lt_irrefl _
  cases hcompare : x.compareTotal y with
  | eq => rfl
  | lt => exact absurd hcompare hlt
  | gt => exact absurd hcompare hgt

theorem ofRank_rank (x : Binary32) : ofRank x.rank = x := by
  have hbits := x.bits.toNat_lt
  have htop : ∀ rank : UInt32, 0x80000000 ≤ rank ↔ 2 ^ 31 ≤ rank.toNat := fun rank =>
    UInt32.le_iff_toNat_le
  obtain ⟨bits⟩ := x
  rw [ofRank]
  cases hsign : isNegative ⟨bits⟩ with
  | true =>
    have hnegative := isNegative_iff.mp hsign
    have hlow : ¬ 0x80000000 ≤ rank ⟨bits⟩ := by
      rw [htop, toNat_rank_of_negative hsign]
      omega
    rw [if_neg hlow, rank, if_pos hsign, UInt32.not_not]
  | false =>
    have hhigh : 0x80000000 ≤ rank ⟨bits⟩ := by
      rw [htop, toNat_rank_of_not_negative hsign]
      omega
    have hsmall : bits.toNat < 2 ^ 31 := by
      rw [← Nat.not_le, ← isNegative_iff (x := ⟨bits⟩), hsign]
      exact Bool.false_ne_true
    rw [if_pos hhigh]
    refine congrArg Binary32.mk (UInt32.toNat_inj.mp ?_)
    rw [UInt32.toNat_and, toNat_rank_of_not_negative hsign]
    show (2 ^ 31 + bits.toNat) &&& (2 ^ 31 - 1) = bits.toNat
    rw [Nat.and_two_pow_sub_one_eq_mod, Nat.add_mod_left, Nat.mod_eq_of_lt hsmall]

/-- Every position of the total order is taken. -/
theorem rank_ofRank (rank : UInt32) : (ofRank rank).rank = rank := by
  have hrank := rank.toNat_lt
  rw [ofRank]
  split
  · rename_i hhigh
    have htop : 2 ^ 31 ≤ rank.toNat := UInt32.le_iff_toNat_le.mp hhigh
    have hbits : (rank &&& 0x7fffffff).toNat = rank.toNat - 2 ^ 31 := by
      rw [UInt32.toNat_and]
      show rank.toNat &&& (2 ^ 31 - 1) = rank.toNat - 2 ^ 31
      rw [Nat.and_two_pow_sub_one_eq_mod]
      omega
    have hsign : isNegative ⟨rank &&& 0x7fffffff⟩ = false := by
      rw [← Bool.not_eq_true, isNegative_iff, hbits]
      omega
    rw [← UInt32.toNat_inj, toNat_rank_of_not_negative hsign, hbits]
    omega
  · rename_i hlow
    have htop : rank.toNat < 2 ^ 31 := by
      rw [← Nat.not_le]
      exact fun hhigh => hlow (UInt32.le_iff_toNat_le.mpr hhigh)
    have hsign : isNegative ⟨~~~rank⟩ = true := by
      rw [isNegative_iff, UInt32.toNat_not, UInt32.size]
      omega
    rw [Binary32.rank, if_pos hsign, UInt32.not_not]

end Binary32

/-! ### Packing -/

namespace Hit

theorem toNat_word_pack (hit : Hit) :
    hit.pack.word.toNat = hit.score.rank.toNat * 0x100000000 + (maxPackedDoc - hit.doc) := by
  have hrank := hit.score.rank.toNat_lt
  have hlt : hit.score.rank.toNat * 0x100000000 + (maxPackedDoc - hit.doc) < 2 ^ 64 := by
    rw [maxPackedDoc]
    omega
  rw [pack, UInt64.toNat_ofNat', Nat.mod_eq_of_lt hlt]

/-- **No hit is lost** in packing. -/
theorem unpack_pack {hit : Hit} (h : hit.doc ≤ maxPackedDoc) : hit.pack.unpack = hit := by
  have hlow : maxPackedDoc - hit.doc < 0x100000000 := by
    rw [maxPackedDoc]
    omega
  have hdoc : hit.pack.word.toNat % 0x100000000 = maxPackedDoc - hit.doc := by
    rw [toNat_word_pack, Nat.add_mod, Nat.mul_mod_left, Nat.zero_add, Nat.mod_mod,
      Nat.mod_eq_of_lt hlow]
  have hrank : hit.pack.word.toNat / 0x100000000 = hit.score.rank.toNat := by
    rw [toNat_word_pack, Nat.mul_comm, Nat.mul_add_div (Nat.zero_lt_of_lt hlow),
      Nat.div_eq_of_lt hlow, Nat.add_zero]
  rw [PackedHit.unpack, hdoc, hrank, UInt32.ofNat_toNat, Binary32.ofRank_rank, Nat.sub_sub_self h]

/-- **A greater word** is a more relevant hit. -/
theorem word_pack_lt_iff {a b : Hit} (ha : a.doc ≤ maxPackedDoc) (hb : b.doc ≤ maxPackedDoc) :
    a.pack.word < b.pack.word ↔ b.isBefore a = true := by
  rw [UInt64.lt_iff_toNat_lt, toNat_word_pack, toNat_word_pack, isBefore_iff, compareRelevance,
    Ordering.then_eq_lt, ← Binary32.rank_lt_rank_iff, Nat.compare_eq_lt]
  have htied : a.score.compareTotal b.score = .eq ↔ a.score.rank.toNat = b.score.rank.toNat := by
    constructor
    · intro heq
      rw [Binary32.eq_of_compareTotal heq]
    · intro heq
      rw [Binary32.rank_inj (UInt32.toNat_inj.mp heq), Binary32.compareTotal_eq]
      exact Std.ReflCmp.compare_self
  rw [htied]
  rw [maxPackedDoc] at ha hb ⊢
  omega

end Hit

namespace PackedHit

theorem doc_unpack_le (p : PackedHit) : p.unpack.doc ≤ maxPackedDoc := Nat.sub_le _ _

/-- **Every word** is the packed form of the hit that it unpacks to. -/
theorem pack_unpack (p : PackedHit) : p.unpack.pack = p := by
  have hword := p.word.toNat_lt
  have hrank : p.unpack.score.rank.toNat = p.word.toNat / 0x100000000 := by
    have hupper : p.word.toNat / 0x100000000 < UInt32.size := by
      rw [UInt32.size]
      omega
    rw [unpack, Binary32.rank_ofRank, UInt32.toNat_ofNat_of_lt' hupper]
  have hdoc : maxPackedDoc - p.unpack.doc = p.word.toNat % 0x100000000 := by
    refine Nat.sub_sub_self ?_
    rw [maxPackedDoc]
    omega
  refine congrArg PackedHit.mk (UInt64.toNat_inj.mp ?_)
  show p.unpack.pack.word.toNat = p.word.toNat
  rw [Hit.toNat_word_pack, hrank, hdoc, Nat.mul_comm]
  exact Nat.div_add_mod _ _

end PackedHit

/-- A hit whose document number fits into half a word. Its score is any word, NaNs included. -/
abbrev Hit.Packable := { hit : Hit // hit.doc ≤ maxPackedDoc }

/-- **Packing is an isomorphism** of the hits in relevance order with the words in descending order:
a greater word is a hit that comes before, a packed hit comes back with its number and every bit of its
score, and each word is the packed form of a hit. -/
theorem Hit.pack_orders_all (a b : Packable) (p : PackedHit) :
    (b.1.pack.word < a.1.pack.word ↔ a.1.isBefore b.1 = true) ∧ a.1.pack.unpack = a.1 ∧
      p.unpack.doc ≤ maxPackedDoc ∧ p.unpack.pack = p :=
  ⟨word_pack_lt_iff b.2 a.2, unpack_pack a.2, p.doc_unpack_le, p.pack_unpack⟩

/-- Hits of one document from the greatest word to the least: NaN, infinity, the two zeros, negative
infinity, and NaN with its sign bit set. -/
example :
    let scores : List UInt32 := [0x7fc00000, 0x7f800000, 0, 0x80000000, 0xff800000, 0xffc00000]
    (scores.map fun bits => (Hit.mk 7 ⟨bits⟩).pack.word).Pairwise (· > ·) := by
  decide

/-! ### The record of a key -/

/-- **A record** is the most relevant of the hits offered. -/
theorem BestPerKey.IsBest.unpack {hits : List Hit} {record : PackedHit}
    (h : IsBest hits (some record)) (hdocs : ∀ hit ∈ hits, hit.doc ≤ maxPackedDoc) :
    record.unpack ∈ hits ∧ ∀ hit ∈ hits, hit.isBefore record.unpack = false := by
  obtain ⟨hne, hle, hfrom⟩ := h
  obtain ⟨best, hbest, rfl⟩ : ∃ hit ∈ hits, hit.pack = record := by
    rcases hfrom with rfl | hfrom
    · -- no hit packs to less than the record of a key without hits
      obtain ⟨hit, hmem⟩ := List.exists_mem_of_ne_nil hits hne
      have hword : hit.pack.word = 0 := UInt64.le_antisymm (hle hit hmem) UInt64.zero_le
      exact ⟨hit, hmem, congrArg PackedHit.mk hword⟩
    · exact hfrom
  rw [Hit.unpack_pack (hdocs best hbest)]
  refine ⟨hbest, fun hit hmem => ?_⟩
  rw [← Bool.not_eq_true, ← Hit.word_pack_lt_iff (hdocs best hbest) (hdocs hit hmem), UInt64.not_lt]
  exact hle hit hmem

end FederatedSearch
