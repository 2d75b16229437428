import FederatedSearch.Hit.Basic

/-!
# Packed hits

A hit fits into one word of 64 bits, so that a record of the best hit can be replaced in one step.
The upper half holds the rank of the score, the lower half the document number counted down from
the top. A greater word is a more relevant hit.

## Main definitions

* `Binary32.rank`, `Binary32.ofRank` — the position of a score in the total order, and back
* `PackedHit` — a packed hit; `Hit.pack`, `PackedHit.unpack`
-/

namespace FederatedSearch

/-- The position of a word in the total order. Negative words come in reverse below the positive
ones. -/
def Binary32.rank (x : Binary32) : UInt32 :=
  if x.isNegative then ~~~x.bits else x.bits ||| 0x80000000

/-- The word at a position of the total order. -/
def Binary32.ofRank (rank : UInt32) : Binary32 :=
  if 0x80000000 ≤ rank then ⟨rank &&& 0x7fffffff⟩ else ⟨~~~rank⟩

/-- The greatest document number that can be packed. -/
def maxPackedDoc : Nat := 0xffffffff

/-- A hit in one word. -/
structure PackedHit where
  word : UInt64
deriving DecidableEq, Inhabited, Repr

namespace PackedHit

/-- The record of a key before any hit: every packed hit is at least this. -/
def none : PackedHit := ⟨0⟩

def unpack (p : PackedHit) : Hit where
  doc := maxPackedDoc - p.word.toNat % 0x100000000
  score := .ofRank (UInt32.ofNat (p.word.toNat / 0x100000000))

end PackedHit

/-- Pack a hit whose document number is at most `maxPackedDoc`. -/
def Hit.pack (hit : Hit) : PackedHit :=
  ⟨UInt64.ofNat (hit.score.rank.toNat * 0x100000000 + (maxPackedDoc - hit.doc))⟩

end FederatedSearch
