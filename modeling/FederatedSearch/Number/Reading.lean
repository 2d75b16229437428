import FederatedSearch.Number.Binary

/-!
# Reading numbers

Text in a field can serve as an integer or as a floating-point number. Both readings take the
whole text: no blanks, no separators, ASCII digits only. Floating-point text is rounded correctly
from all its digits.

Numbers in JSON documents are read by a cheaper rule, `Binary64.ofScaled?`: a significand of at
most 64 bits, multiplied or divided by a power of ten, each step rounded.

## Main definitions

* `int64OfText?`, `Binary64.ofText?` — a field's text as a number
* `Binary64.ofScaled?` — the value of a JSON number with a fraction or an exponent
-/

namespace FederatedSearch

def isDigit (c : Char) : Bool := '0' ≤ c && c ≤ '9'

def digitValue (c : Char) : Nat := c.toNat - '0'.toNat

/-- The number that a list of digits denotes, continuing from `start`. -/
def digitsValue (start : Nat) (digits : List Char) : Nat :=
  digits.foldl (fun n c => n * 10 + digitValue c) start

def hexDigit? (c : Char) : Option Nat :=
  if isDigit c then some (digitValue c)
  else if 'a' ≤ c && c ≤ 'f' then some (c.toNat - 'a'.toNat + 10)
  else if 'A' ≤ c && c ≤ 'F' then some (c.toNat - 'A'.toNat + 10)
  else none

/-- Split off a leading sign. -/
def splitSign : List Char → Bool × List Char
  | '-' :: rest => (true, rest)
  | '+' :: rest => (false, rest)
  | chars => (false, chars)

/-- A signed 64-bit integer: an optional sign, then digits and nothing else. -/
def int64OfText? (text : String) : Option Int64 :=
  let (negative, digits) := splitSign text.toList
  if digits.isEmpty || !digits.all isDigit then none
  else
    let magnitude := digitsValue 0 digits
    let value : Int := if negative then -magnitude else magnitude
    if Int64.minValue.toInt ≤ value ∧ value ≤ Int64.maxValue.toInt then some (Int64.ofInt value) else none

/-! ### Floating-point text -/

/-- The exponent after the digits: none, or a mark, an optional sign and digits up to the end. -/
def exponentOfText? : List Char → Option Int
  | [] => some 0
  | mark :: rest =>
    if mark ≠ 'e' ∧ mark ≠ 'E' then none
    else
      let (negative, digits) := splitSign rest
      if digits.isEmpty || !digits.all isDigit then none
      else
        let magnitude : Nat := digitsValue 0 digits
        some (if negative then -magnitude else magnitude)

/-- The binary64 number nearest to `digits * 10 ^ exponent`. Exponents far outside the range are
answered without computing the power. -/
def Binary64.nearest (digits : Nat) (exponent : Int) : Binary64 :=
  let leading : Int := (Nat.toDigits 10 digits).length + exponent
  if digits = 0 ∨ leading < -400 then .zero
  else if 400 < leading then ⟨0x7ff0000000000000⟩
  else .ofNumber (Float.ofScientific digits (exponent < 0) exponent.natAbs)

/-- An unsigned floating-point text: digits with at most one point among them, at least one digit
in all, then an optional exponent. -/
def unsignedOfText? (chars : List Char) : Option Binary64 := do
  let whole := chars.takeWhile isDigit
  let rest := chars.dropWhile isDigit
  let (fraction, rest) :=
    match rest with
    | '.' :: rest => (rest.takeWhile isDigit, rest.dropWhile isDigit)
    | rest => ([], rest)
  if whole.isEmpty && fraction.isEmpty then none
  else
    let exponent ← exponentOfText? rest
    some (.nearest (digitsValue 0 (whole ++ fraction)) (exponent - fraction.length))

/-- A floating-point number: an optional sign, then digits, or a name for infinity or NaN in any
case of letters. -/
def Binary64.ofText? (text : String) : Option Binary64 := do
  let (negative, chars) := splitSign text.toList
  let name := String.ofList (chars.map Char.toLower)
  let magnitude ←
    if name = "inf" ∨ name = "infinity" then some ⟨0x7ff0000000000000⟩
    else if name = "nan" then some ⟨0x7ff8000000000000⟩
    else unsignedOfText? chars
  some (if negative then magnitude.negate else magnitude)

/-! ### Scaled significands -/

def powerOfTen (k : Nat) : Float := Float.ofScientific 1 false k

/-- Divide by `10 ^ k` in steps of at most `10 ^ 308`, the greatest power that is representable. -/
def scaleDown (x : Float) (k : Nat) : Float :=
  if k ≤ 308 then x / powerOfTen k
  else if x == 0.0 then x
  else scaleDown (x / powerOfTen 308) (k - 308)
termination_by k

/-- `significand * 10 ^ exponent`, rounding the significand and each multiplication or division;
`none` beyond the greatest finite number. -/
def Binary64.ofScaled? (significand : UInt64) (exponent : Int) : Option Binary64 :=
  let x := significand.toFloat
  match exponent with
  | .ofNat k =>
    if 308 < k then (if significand = 0 then some .zero else none)
    else
      let r := x * powerOfTen k
      if r.isInf then none else some (.ofNumber r)
  | .negSucc k => some (.ofNumber (scaleDown x (k + 1)))

end FederatedSearch
