import FederatedSearch.Number.Decimal

/-!
# How numbers are written

Two texts of a floating-point number are in use. A field value shown as text is always
positional, and a whole number has no fraction. In a JSON document a number of moderate size is
positional with at least one fraction digit, any other is scientific, and a number that JSON
cannot express becomes `null`.

## Main definitions

* `JsonLayout` — which exponents are written positionally in JSON
* `Binary64.plainText` — the text of a field value
* `Binary64.jsonText`, `Binary32.jsonText` — the text in a JSON document
-/

namespace FederatedSearch

/-- The powers of ten of the leading digit between which JSON text is positional. -/
structure JsonLayout where
  least : Int
  greatest : Int

namespace JsonLayout

/-- Double precision is positional from `1e-5` to just below `1e16`. -/
def double : JsonLayout := ⟨-5, 15⟩

/-- Single precision is positional from `1e-6` to just below `1e13`. -/
def single : JsonLayout := ⟨-6, 12⟩

def text (layout : JsonLayout) (d : Decimal) : String :=
  if d.digits = 0 then "0.0"
  else if layout.least ≤ d.leadingExponent ∧ d.leadingExponent ≤ layout.greatest then
    if d.exponent < 0 then d.positional else d.positional ++ ".0"
  else d.scientific

end JsonLayout

def signText (negative : Bool) : String := if negative then "-" else ""

/-- Positional text of any length, without a fraction for whole numbers. -/
def Binary64.plainText (x : Binary64) : String :=
  if x.isNaN then "NaN"
  else signText x.isNegative ++
    if x.isFinite then (BinaryFormat.double.shortest x.bits.toNat).positional else "inf"

def Binary64.jsonText (x : Binary64) : String :=
  if x.isFinite then
    signText x.isNegative ++ JsonLayout.double.text (BinaryFormat.double.shortest x.bits.toNat)
  else "null"

def Binary32.jsonText (x : Binary32) : String :=
  if x.isFinite then
    signText x.isNegative ++ JsonLayout.single.text (BinaryFormat.single.shortest x.bits.toNat)
  else "null"

end FederatedSearch
