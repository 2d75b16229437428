/-!
# Tables of characters

Sets of characters that the Unicode standard lists are kept as ascending ranges of code points. A
table is written as numbers in base 36: for each range its distance from the end of the range
before it, and its length.

## Main definitions

* `CharTable` — the ranges; `CharTable.decode`, `CharTable.contains`
-/

namespace FederatedSearch

def base36Digit (c : Char) : Nat :=
  if '0' ≤ c ∧ c ≤ '9' then c.toNat - '0'.toNat else c.toNat - 'a'.toNat + 10

/-- Numbers in base 36, separated by blanks. -/
def base36Numbers (text : String) : List Nat :=
  let (numbers, last) := text.toList.foldl
    (fun (numbers, current) c =>
      if c = ' ' then (current :: numbers, 0) else (numbers, current * 36 + base36Digit c))
    (([], 0) : List Nat × Nat)
  (last :: numbers).reverse

/-- A set of characters as ascending ranges `(first, past)` of code points. -/
structure CharTable where
  ranges : Array (Nat × Nat)
deriving Inhabited

namespace CharTable

/-- Ranges from distances and lengths, continuing at `position`. -/
def rangesFrom (position : Nat) : List Nat → List (Nat × Nat)
  | distance :: length :: rest =>
    let first := position + distance
    (first, first + length) :: rangesFrom (first + length) rest
  | _ => []

def decode (text : String) : CharTable := ⟨(rangesFrom 0 (base36Numbers text)).toArray⟩

/-- Look for the last range that starts at or before a code point, between two indices. -/
def search (ranges : Array (Nat × Nat)) (point : Nat) : Nat → Nat → Nat → Bool
  | 0, _, _ => false
  | fuel + 1, low, high =>
    if high ≤ low then false
    else
      let middle := (low + high) / 2
      match ranges[middle]? with
      | none => false
      | some (first, past) =>
        if point < first then search ranges point fuel low middle
        else if past ≤ point then search ranges point fuel (middle + 1) high
        else true

def contains (t : CharTable) (c : Char) : Bool :=
  search t.ranges c.toNat (t.ranges.size + 1) 0 t.ranges.size

end CharTable

end FederatedSearch
