/-!
# Binary floating-point words

Relevance scores are binary32 numbers and fractional field values are binary64 numbers. Both are
kept as their words rather than as numbers, because the engine tells words apart that denote the
same number: the total order separates the two zeros and every NaN, and a packed record stores a
score bit for bit.

Arithmetic goes through the hardware operations of `Float32` and `Float`; only what those leave
open is fixed here, namely which NaN comes out.

## Main definitions

* `BinaryFormat` — the fields of a word: sign, exponent, fraction, and the magnitude
  `significand * 2 ^ scale` they stand for
* `Binary32`, `Binary64` — the words, with `compareTotal`, the total order on them
* `Binary64.truncate` — the integer part, clamped to 64 bits
-/

namespace FederatedSearch

/-- A binary interchange format: a sign bit, then `exponentBits` bits of biased exponent, then
`fractionBits` bits of fraction. -/
structure BinaryFormat where
  exponentBits : Nat
  fractionBits : Nat

namespace BinaryFormat

def single : BinaryFormat := ⟨8, 23⟩

def double : BinaryFormat := ⟨11, 52⟩

variable (f : BinaryFormat) (word : Nat)

def isNegative : Bool := word.testBit (f.exponentBits + f.fractionBits)

def exponentField : Nat := (word >>> f.fractionBits) % (1 <<< f.exponentBits)

def fraction : Nat := word % (1 <<< f.fractionBits)

/-- The exponent field that marks infinities and NaNs. -/
def specialExponent : Nat := (1 <<< f.exponentBits) - 1

def isNaN : Bool := f.exponentField word == f.specialExponent && f.fraction word != 0

def isFinite : Bool := f.exponentField word != f.specialExponent

/-- The significand of a finite word, with the leading bit that normal words leave implicit. -/
def significand : Nat :=
  if f.exponentField word = 0 then f.fraction word else (1 <<< f.fractionBits) + f.fraction word

/-- The power of two that the significand is multiplied by. Subnormal words share the scale of
the smallest normal ones. -/
def scale : Int :=
  (max (f.exponentField word) 1 : Nat) - ((1 <<< (f.exponentBits - 1)) - 1 : Nat) - f.fractionBits

end BinaryFormat

/-! ### Single precision -/

/-- A binary32 number, as its word. -/
structure Binary32 where
  bits : UInt32
deriving DecidableEq, Inhabited, Repr

namespace Binary32

def zero : Binary32 := ⟨0⟩

def one : Binary32 := ⟨0x3f800000⟩

def isNegative (x : Binary32) : Bool := 0x80000000 ≤ x.bits

def isNaN (x : Binary32) : Bool := BinaryFormat.single.isNaN x.bits.toNat

def isFinite (x : Binary32) : Bool := BinaryFormat.single.isFinite x.bits.toNat

def toNumber (x : Binary32) : Float32 := Float32.ofBits x.bits

/-- The total order on words: negative below positive, larger magnitudes outermost, so that NaNs
lie beyond the infinities and `-0.0` below `0.0`. -/
def compareTotal (x y : Binary32) : Ordering :=
  match x.isNegative, y.isNegative with
  | false, false => compare x.bits y.bits
  | true, true => compare y.bits x.bits
  | true, false => .lt
  | false, true => .gt

/-- The NaN of an operation that has no value, such as `∞ - ∞`. -/
def invalid : Binary32 := ⟨0xffc00000⟩

/-- A NaN operand is handed on with its quiet bit set. -/
def quiet (x : Binary32) : Binary32 := ⟨x.bits ||| 0x00400000⟩

/-- Lift an operation on numbers to words. The first NaN operand is the result; an operation
that makes a NaN of its own yields `invalid`. -/
def lift (op : Float32 → Float32 → Float32) (x y : Binary32) : Binary32 :=
  if x.isNaN then x.quiet
  else if y.isNaN then y.quiet
  else
    let r := op x.toNumber y.toNumber
    if r.isNaN then invalid else ⟨r.toBits⟩

instance : Add Binary32 := ⟨lift (· + ·)⟩
instance : Sub Binary32 := ⟨lift (· - ·)⟩
instance : Mul Binary32 := ⟨lift (· * ·)⟩

/-- Numeric comparison: false on NaN, and the two zeros are equal. -/
def le (x y : Binary32) : Bool := decide (x.toNumber ≤ y.toNumber)

/-- Numeric equality: false on NaN, and the two zeros are equal. -/
def sameNumber (x y : Binary32) : Bool := x.toNumber == y.toNumber

def ofNat (n : Nat) : Binary32 := ⟨(Float32.ofNat n).toBits⟩

/-- The quotient of two counts as a single-precision number. -/
def ratio (n d : Nat) : Binary32 := ⟨(Float32.ofNat n / Float32.ofNat d).toBits⟩

end Binary32

/-! ### Double precision -/

/-- A binary64 number, as its word. -/
structure Binary64 where
  bits : UInt64
deriving DecidableEq, Inhabited, Repr

namespace Binary64

def zero : Binary64 := ⟨0⟩

def isNegative (x : Binary64) : Bool := 0x8000000000000000 ≤ x.bits

def isNaN (x : Binary64) : Bool := BinaryFormat.double.isNaN x.bits.toNat

def isFinite (x : Binary64) : Bool := BinaryFormat.double.isFinite x.bits.toNat

def toNumber (x : Binary64) : Float := Float.ofBits x.bits

def ofNumber (x : Float) : Binary64 := ⟨x.toBits⟩

def negate (x : Binary64) : Binary64 := ⟨x.bits ^^^ 0x8000000000000000⟩

/-- The total order on words, as for `Binary32.compareTotal`. -/
def compareTotal (x y : Binary64) : Ordering :=
  match x.isNegative, y.isNegative with
  | false, false => compare x.bits y.bits
  | true, true => compare y.bits x.bits
  | true, false => .lt
  | false, true => .gt

/-- Numeric equality: false on NaN, and the two zeros are equal. -/
def sameNumber (x y : Binary64) : Bool := x.toNumber == y.toNumber

/-- The nearest binary64 number to an integer, ties to even. -/
def ofInt (v : Int) : Binary64 := ofNumber (Float.ofInt v)

/-- The nearest binary32 number, ties to even; a magnitude too large becomes infinite. -/
def toSingle (x : Binary64) : Binary32 := ⟨x.toNumber.toFloat32.toBits⟩

/-- The integer part, clamped to what 64 signed bits hold; a NaN counts as `0`. -/
def truncate (x : Binary64) : Int64 :=
  let word := x.bits.toNat
  if x.isNaN then 0
  else
    let m := BinaryFormat.double.significand word
    let magnitude : Nat :=
      match BinaryFormat.double.scale word with
      | .ofNat k => m <<< k
      | .negSucc k => m >>> (k + 1)
    if x.isNegative then Int64.ofInt (-(min magnitude (1 <<< 63) : Nat))
    else Int64.ofInt (min magnitude ((1 <<< 63) - 1) : Nat)

end Binary64

/-! ### Widening -/

/-- The double-precision magnitude of a single-precision one, that is of a word without its sign. The
exponent gets another bias, where infinities and NaNs keep theirs at the top; subnormal magnitudes
become normal ones. -/
def widenMagnitude (m : Nat) : Nat :=
  if m = 0 then 0
  else if m < 1 <<< 23 then ((m.log2 + 873) <<< 52) + (m <<< (52 - m.log2))
  else if m < 255 <<< 23 then (m <<< 29) + (896 <<< 52)
  else (m <<< 29) + (1792 <<< 52)

/-- Widen a single-precision word. A NaN keeps its sign and the leading bits of its payload. -/
def Binary32.toDouble (x : Binary32) : Binary64 :=
  let word := if x.isNaN then x.quiet else x
  let sign := if x.isNegative then 1 <<< 63 else 0
  ⟨UInt64.ofNat (sign + widenMagnitude (word.bits.toNat % 0x80000000))⟩

end FederatedSearch
