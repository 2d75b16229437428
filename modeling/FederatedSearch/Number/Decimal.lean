import FederatedSearch.Number.Binary

/-!
# Shortest decimals

A finite binary number is written with the fewest decimal digits that still identify it: any
decimal strictly nearer to it than to its neighbours reads back as the same number.

Every binary number has a finite decimal expansion, so the search needs no rational arithmetic.
In units of `10 ^ (-places)` the number, its two halfway points and every candidate are integers.

## Main definitions

* `Decimal` — digits and a power of ten
* `BinaryFormat.shortest` — the shortest decimal that identifies a finite word
* `Decimal.positional`, `Decimal.scientific` — its text
-/

namespace FederatedSearch

/-- The number `digits * 10 ^ exponent`. -/
structure Decimal where
  digits : Nat
  exponent : Int
deriving DecidableEq, Repr

namespace Decimal

/-- Decimal digits of `n`; `0` has one. -/
def digitCount (n : Nat) : Nat := (Nat.toDigits 10 n).length

/-- Move trailing zeros of the digits into the exponent. `fuel` bounds the number of zeros. -/
def stripZeros : Nat → Decimal → Decimal
  | 0, d => d
  | fuel + 1, d =>
    if d.digits ≠ 0 ∧ d.digits % 10 = 0 then stripZeros fuel ⟨d.digits / 10, d.exponent + 1⟩ else d

/-- The exponent of the leading digit when the number is written `d.ddd * 10 ^ e`. -/
def leadingExponent (d : Decimal) : Int := digitCount d.digits - 1 + d.exponent

/-! ### Text -/

def zeros (n : Nat) : String := String.ofList (List.replicate n '0')

/-- Digits around a point, with no point in a whole number. -/
def positional (d : Decimal) : String :=
  let text := toString d.digits
  match d.exponent with
  | .ofNat k => if d.digits = 0 then text else text ++ zeros k
  | .negSucc k =>
    let places := k + 1
    if text.length ≤ places then "0." ++ zeros (places - text.length) ++ text
    else
      let chars := text.toList
      String.ofList (chars.take (chars.length - places)) ++ "." ++
        String.ofList (chars.drop (chars.length - places))

/-- One digit before the point, then the power of ten with its sign. -/
def scientific (d : Decimal) : String :=
  let e := d.leadingExponent
  let power := if e < 0 then toString e else "+" ++ toString e
  match (toString d.digits).toList with
  | [] => "0"
  | [c] => String.ofList [c] ++ "e" ++ power
  | c :: rest => String.ofList (c :: '.' :: rest) ++ "e" ++ power

end Decimal

namespace BinaryFormat

/-- The points that decide which decimals identify a word, in units of `10 ^ (-places)`. -/
structure Neighbourhood where
  value : Nat
  low : Nat
  high : Nat
  places : Nat
  /-- Whether the halfway points themselves read back as the word. -/
  closed : Bool

/-- The halfway points of a word lie half a unit of its significand away, except below a power of
two, where the next smaller word is only half as far. Quarter units make all three integers. -/
def neighbourhood (f : BinaryFormat) (word : Nat) : Neighbourhood :=
  let m := f.significand word
  let below := if f.fraction word = 0 ∧ 1 < f.exponentField word then 1 else 2
  let (unit, places) : Nat × Nat :=
    match f.scale word - 2 with
    | .ofNat k => (1 <<< k, 0)
    | .negSucc k => (Nat.pow 5 (k + 1), k + 1)
  { value := 4 * m * unit, low := (4 * m - below) * unit, high := (4 * m + 2) * unit,
    places := places, closed := m % 2 == 0 }

def Neighbourhood.holds (n : Neighbourhood) (candidate : Nat) : Bool :=
  if n.closed then n.low ≤ candidate && candidate ≤ n.high
  else n.low < candidate && candidate < n.high

/-- The candidate with `count` digits that identifies the word, if there is one: of the two grid
points around the value the nearer, and of two equally near the one with the even last digit. -/
def Neighbourhood.candidate? (n : Neighbourhood) (count : Nat) : Option Nat :=
  let step := Nat.pow 10 (Decimal.digitCount n.value - count)
  let lower := n.value / step * step
  let upper := if lower = n.value then lower else lower + step
  match n.holds lower, n.holds upper with
  | false, false => none
  | true, false => some lower
  | false, true => some upper
  | true, true =>
    if n.value - lower < upper - n.value then some lower
    else if upper - n.value < n.value - lower then some upper
    else if lower / step % 2 = 0 then some lower else some upper

/-- The fewest digits that identify a finite word, sign apart. Seventeen always suffice. -/
def shortest (f : BinaryFormat) (word : Nat) : Decimal :=
  if f.significand word = 0 then ⟨0, 0⟩ else
  let n := f.neighbourhood word
  let hit := ((List.range 18).drop 1).findSome? n.candidate?
  let digits := hit.getD n.value
  Decimal.stripZeros (Decimal.digitCount digits) ⟨digits, -n.places⟩

end BinaryFormat

end FederatedSearch
