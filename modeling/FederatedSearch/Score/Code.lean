import FederatedSearch.Number.Binary

/-!
# Score codes

Scores that are only looked up by key are kept in two bytes each, in steps of 1/256. Code 0 is set
aside for "no score"; code `n + 1` stands for the score `n / 256`. Scores that are negative or not
a number count as 0, scores beyond the last code as the greatest that can be expressed.

## Main definitions

* `ScoreCode` — the code; `ofScore`, `toScore`
-/

namespace FederatedSearch

/-- A score in two bytes. -/
structure ScoreCode where
  word : UInt16
deriving DecidableEq, Inhabited, Repr

namespace ScoreCode

def stepsPerUnit : Nat := 256

/-- The greatest number of steps that a code can express. -/
def maxSteps : Nat := 65534

/-- The number of steps nearest to a finite positive score; halves are rounded up. -/
def steps (x : Binary32) : Nat :=
  let m := BinaryFormat.single.significand x.bits.toNat * stepsPerUnit
  match BinaryFormat.single.scale x.bits.toNat with
  | .ofNat k => m <<< k
  | .negSucc k => (m + (1 <<< k)) >>> (k + 1)

def ofScore (x : Binary32) : ScoreCode :=
  let steps :=
    if x.isNaN || x.isNegative then 0
    else if x.isFinite then min (steps x) maxSteps
    else maxSteps
  ⟨UInt16.ofNat (steps + 1)⟩

def toScore (c : ScoreCode) : Binary32 :=
  if c.word = 0 then .zero else .ratio (c.word.toNat - 1) stepsPerUnit

end ScoreCode

end FederatedSearch
