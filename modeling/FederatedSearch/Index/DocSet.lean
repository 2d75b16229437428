/-!
# Sets of documents

The documents of a segment are numbered from 0. A set of them is a bitmap: bit `i` of the mask says
whether document `i` is in the set.

## Main definitions

* `DocSet` — the set; `contains`, `insert`, `inter`, `union`, `diff`
* `DocSet.below`, `DocSet.filterBelow` — all documents of a segment, and those with a property
* `DocSet.toList` — the documents below a bound in ascending order
-/

namespace FederatedSearch

/-- A set of document numbers. -/
structure DocSet where
  mask : Nat := 0
deriving DecidableEq, Inhabited

namespace DocSet

def empty : DocSet := {}

def contains (s : DocSet) (doc : Nat) : Bool := s.mask.testBit doc

def insert (s : DocSet) (doc : Nat) : DocSet := ⟨s.mask ||| (1 <<< doc)⟩

def inter (s t : DocSet) : DocSet := ⟨s.mask &&& t.mask⟩

def union (s t : DocSet) : DocSet := ⟨s.mask ||| t.mask⟩

def diff (s t : DocSet) : DocSet := ⟨s.mask ^^^ (s.mask &&& t.mask)⟩

/-- All documents below a bound. -/
def below (bound : Nat) : DocSet := ⟨(1 <<< bound) - 1⟩

/-- The documents below a bound that have a property. -/
def filterBelow (property : Nat → Bool) : Nat → DocSet
  | 0 => empty
  | bound + 1 =>
    let rest := filterBelow property bound
    if property bound then rest.insert bound else rest

/-- The documents of the set below a bound, in ascending order. -/
def toList (s : DocSet) (bound : Nat) : List Nat := (List.range bound).filter s.contains

/-- How many documents below a bound are in the set. -/
def count (s : DocSet) (bound : Nat) : Nat := (s.toList bound).length

@[simp] theorem contains_empty (doc : Nat) : empty.contains doc = false := by
  simp [empty, contains]

@[simp] theorem contains_insert (s : DocSet) (d doc : Nat) :
    (s.insert d).contains doc = (s.contains doc || decide (d = doc)) := by
  simp [insert, contains, Nat.testBit_or, Nat.one_shiftLeft, Nat.testBit_two_pow]

@[simp] theorem contains_inter (s t : DocSet) (doc : Nat) :
    (s.inter t).contains doc = (s.contains doc && t.contains doc) := by
  simp [inter, contains, Nat.testBit_and]

@[simp] theorem contains_union (s t : DocSet) (doc : Nat) :
    (s.union t).contains doc = (s.contains doc || t.contains doc) := by
  simp [union, contains, Nat.testBit_or]

@[simp] theorem contains_diff (s t : DocSet) (doc : Nat) :
    (s.diff t).contains doc = (s.contains doc && !t.contains doc) := by
  simp only [diff, contains, Nat.testBit_xor, Nat.testBit_and]
  cases s.mask.testBit doc <;> cases t.mask.testBit doc <;> rfl

@[simp] theorem contains_below (bound doc : Nat) :
    (below bound).contains doc = decide (doc < bound) := by
  simp [below, contains, Nat.one_shiftLeft, Nat.testBit_two_pow_sub_one]

@[simp] theorem contains_filterBelow (property : Nat → Bool) (bound doc : Nat) :
    (filterBelow property bound).contains doc = (decide (doc < bound) && property doc) := by
  induction bound with
  | zero => simp [filterBelow]
  | succ n ih =>
    rw [filterBelow]
    rcases Nat.lt_trichotomy doc n with h | rfl | h
    · have hne : n ≠ doc := by omega
      split <;> simp [ih, h, Nat.lt_succ_of_lt h, hne]
    · split <;> rename_i hp <;> simp [ih, hp]
    · have hne : n ≠ doc := by omega
      have h1 : ¬ doc < n := by omega
      have h2 : ¬ doc < n + 1 := by omega
      split <;> simp [ih, h1, h2, hne]

end DocSet

end FederatedSearch
