import FederatedSearch.Number.Binary
import Mathlib.Tactic.SplitIfs

/-!
# The total order on words

The total order compares words by sign and bits. It is the order of the integers that stand for the
words, with the negative words below all others and in reverse, so it is a linear order in which no
two words are tied.

## Main results

* `Binary32.compareTotal_eq`, `Binary64.compareTotal_eq` — the order of integers
-/

namespace FederatedSearch

open Std

/-- The place of a word with given sign and bits. -/
def signedLevel (negative : Bool) (bits : Nat) : Int :=
  if negative then -(bits : Int) - 1 else bits

theorem compare_signedLevel {a b : Nat} (s t : Bool) :
    (match s, t with
      | false, false => compare a b
      | true, true => compare b a
      | true, false => .lt
      | false, true => .gt) = compare (signedLevel s a) (signedLevel t b) := by
  cases s <;> cases t <;> simp only [Nat.compare_eq_ite_lt, Int.compare_eq_ite_lt, signedLevel, if_true,
    Bool.false_eq_true, if_false]
  all_goals
    split_ifs <;> first | rfl | omega

theorem signedLevel_inj {a b : Nat} {s t : Bool} (h : signedLevel s a = signedLevel t b) : a = b := by
  rw [signedLevel, signedLevel] at h
  split_ifs at h <;> omega

namespace Binary32

def level (x : Binary32) : Int := signedLevel x.isNegative x.bits.toNat

theorem compareTotal_eq (x y : Binary32) : x.compareTotal y = compareOn level x y := by
  have hbits : ∀ v w : UInt32, compare v w = compare v.toNat w.toNat := by
    intro v w
    simp only [compare, compareOfLessAndEq, UInt32.lt_iff_toNat_lt, UInt32.toNat_inj]
  rw [compareTotal, hbits, hbits]
  exact compare_signedLevel _ _

instance : TransCmp compareTotal := by
  rw [show compareTotal = compareOn level from funext fun x => funext (compareTotal_eq x)]
  infer_instance

/-- No two words are tied. -/
theorem eq_of_compareTotal {x y : Binary32} (h : x.compareTotal y = .eq) : x = y := by
  rw [compareTotal_eq] at h
  have hbits : x.bits = y.bits := UInt32.toNat_inj.mp (signedLevel_inj (LawfulEqCmp.eq_of_compare h))
  cases x
  exact congrArg Binary32.mk hbits

end Binary32

namespace Binary64

def level (x : Binary64) : Int := signedLevel x.isNegative x.bits.toNat

theorem compareTotal_eq (x y : Binary64) : x.compareTotal y = compareOn level x y := by
  have hbits : ∀ v w : UInt64, compare v w = compare v.toNat w.toNat := by
    intro v w
    simp only [compare, compareOfLessAndEq, UInt64.lt_iff_toNat_lt, UInt64.toNat_inj]
  rw [compareTotal, hbits, hbits]
  exact compare_signedLevel _ _

instance : TransCmp compareTotal := by
  rw [show compareTotal = compareOn level from funext fun x => funext (compareTotal_eq x)]
  infer_instance

/-- No two words are tied. -/
theorem eq_of_compareTotal {x y : Binary64} (h : x.compareTotal y = .eq) : x = y := by
  rw [compareTotal_eq] at h
  have hbits : x.bits = y.bits := UInt64.toNat_inj.mp (signedLevel_inj (LawfulEqCmp.eq_of_compare h))
  cases x
  exact congrArg Binary64.mk hbits

end Binary64

end FederatedSearch
