import FederatedSearch.Number.Binary

/-!
# Blending scores

A hit of the result core is ranked by its own score together with the scores that related documents
have under the rank queries of other cores. With ratio `r`, own score `b` and other scores `sᵢ` the
blended score is `(1 - r) * b + r * ∏ (1 + sᵢ)`, computed in single precision in this order.

## Main definitions

* `effectiveRatio` — the ratio to use
* `blend` — the blended score
-/

namespace FederatedSearch

/-- The ratio to use when none is asked for. -/
def defaultRatio : Binary32 := ⟨0x3f000000⟩

/-- The ratio asked for if it lies between 0 and 1, the default otherwise. -/
def effectiveRatio : Option Binary32 → Binary32
  | some ratio => if Binary32.zero.le ratio && ratio.le .one then ratio else defaultRatio
  | none => defaultRatio

/-- The blended score. -/
def blend (base ratio : Binary32) (others : List Binary32) : Binary32 :=
  let product := others.foldl (fun product s => product * (.one + s)) .one
  (.one - ratio) * base + ratio * product

end FederatedSearch
