import FederatedSearch.Json.Value
import FederatedSearch.Number.Reading

/-!
# Reading JSON text

A reader of the standard grammar: one document, blanks around tokens, nothing after it. Arrays and
objects nested more deeply than `maxDepth`, and objects with a name that holds half a surrogate
pair, are unreadable parts of a document.

A whole number that fits in 64 bits is an integer. Any other number is a double, and so is `-0`.

## Main definitions

* `Json.read?` — the document that a text holds
-/

namespace FederatedSearch

namespace Json

/-- How deeply readable arrays and objects may be nested. -/
def maxDepth : Nat := 127

def isBlank (c : Char) : Bool := c = ' ' || c = '\n' || c = '\t' || c = '\r'

def skipBlanks (chars : List Char) : List Char := chars.dropWhile isBlank

/-! ### Numbers -/

/-- Take digits into a significand as long as it fits in 64 bits. Returns the significand and how
many digits it took. -/
def absorbDigits (significand : Nat) : List Char → Nat × Nat
  | [] => (significand, 0)
  | c :: rest =>
    let next := significand * 10 + digitValue c
    if UInt64.size ≤ next then (significand, 0)
    else
      let (final, taken) := absorbDigits next rest
      (final, taken + 1)

/-- A number as written: sign, digits before the point, digits after it, exponent. -/
structure NumberText where
  negative : Bool
  whole : List Char
  fraction : Option (List Char)
  exponent : Option Int

def withSign (negative : Bool) (x : Binary64) : Json := .double (if negative then x.negate else x)

/-- The document a number stands for. Whole digits that no longer fit are replaced by zeros,
fraction digits that no longer fit are dropped. -/
def NumberText.toJson (n : NumberText) : Json :=
  let (significand, taken) := absorbDigits 0 n.whole
  let skipped : Nat := n.whole.length - taken
  if n.fraction.isNone && n.exponent.isNone && skipped == 0 then
    if !n.negative then .integer significand
    else if significand ≠ 0 ∧ significand ≤ 1 <<< 63 then .integer (-significand)
    else withSign true (.ofNumber (UInt64.ofNat significand).toFloat)
  else
    let (significand, places) := absorbDigits significand (n.fraction.getD [])
    let exponent : Int := skipped - places + n.exponent.getD 0
    match Binary64.ofScaled? (UInt64.ofNat significand) exponent with
    | some x => withSign n.negative x
    | none => .unreadable

/-- The digits of a whole part: no leading zero unless it is the only digit. -/
def splitWhole? : List Char → Option (List Char × List Char)
  | '0' :: rest => if (rest.headD ' ' |> isDigit) then none else some (['0'], rest)
  | c :: rest =>
    if isDigit c then some (c :: rest.takeWhile isDigit, rest.dropWhile isDigit) else none
  | [] => none

/-- At least one digit. -/
def splitDigits? (chars : List Char) : Option (List Char × List Char) :=
  let digits := chars.takeWhile isDigit
  if digits.isEmpty then none else some (digits, chars.dropWhile isDigit)

def splitFraction? : List Char → Option (Option (List Char) × List Char)
  | '.' :: rest => (splitDigits? rest).map fun (digits, rest) => (some digits, rest)
  | chars => some (none, chars)

def splitExponent? : List Char → Option (Option Int × List Char)
  | mark :: rest =>
    if mark = 'e' || mark = 'E' then
      let (negative, rest) := splitSign rest
      (splitDigits? rest).map fun (digits, rest) =>
        let magnitude : Nat := digitsValue 0 digits
        (some (if negative then -magnitude else magnitude), rest)
    else some (none, mark :: rest)
  | [] => some (none, [])

def number? (chars : List Char) : Option (Json × List Char) := do
  let (negative, chars) :=
    match chars with
    | '-' :: rest => (true, rest)
    | chars => (false, chars)
  let (whole, chars) ← splitWhole? chars
  let (fraction, chars) ← splitFraction? chars
  let (exponent, chars) ← splitExponent? chars
  some (NumberText.toJson ⟨negative, whole, fraction, exponent⟩, chars)

/-! ### Text -/

/-- A UTF-16 code unit as four hexadecimal digits. -/
def codeUnit? : List Char → Option (Nat × List Char)
  | a :: b :: c :: d :: rest => do
    let a ← hexDigit? a
    let b ← hexDigit? b
    let c ← hexDigit? c
    let d ← hexDigit? d
    some (((a * 16 + b) * 16 + c) * 16 + d, rest)
  | _ => none

def simpleEscape? : Char → Option Char
  | '"' => some '"'
  | '\\' => some '\\'
  | '/' => some '/'
  | 'b' => some '\x08'
  | 'f' => some '\x0c'
  | 'n' => some '\n'
  | 'r' => some '\r'
  | 't' => some '\t'
  | _ => none

/-- The character of an escaped code unit and of the unit after it, if the two make a pair. The
character is absent if the unit is half a pair on its own. -/
def pairedUnit (unit : Nat) (rest : List Char) : Option Char × List Char :=
  if unit < 0xD800 || 0xDFFF < unit then (some (Char.ofNat unit), rest)
  else if 0xDC00 ≤ unit then (none, rest)
  else
    match rest with
    | '\\' :: 'u' :: more =>
      match codeUnit? more with
      | some (second, after) =>
        if 0xDC00 ≤ second && second ≤ 0xDFFF then
          (some (Char.ofNat (0x10000 + (unit - 0xD800) * 0x400 + (second - 0xDC00))), after)
        else (none, rest)
      | none => (none, rest)
    | _ => (none, rest)

/-- The rest of a text after its opening quote, up to its closing quote. The flag says whether
every escape so far denoted a character. Each step consumes a character, so that the length of the
input is fuel enough. -/
def textTail? : Nat → Bool → List Char → List Char → Option (Option String × List Char)
  | _ + 1, sound, acc, '"' :: rest =>
    some (if sound then some (String.ofList acc.reverse) else none, rest)
  | fuel + 1, sound, acc, '\\' :: 'u' :: rest => do
    let (unit, rest) ← codeUnit? rest
    match pairedUnit unit rest with
    | (some c, rest) => textTail? fuel sound (c :: acc) rest
    | (none, rest) => textTail? fuel false acc rest
  | fuel + 1, sound, acc, '\\' :: c :: rest => do
    textTail? fuel sound ((← simpleEscape? c) :: acc) rest
  | fuel + 1, sound, acc, c :: rest =>
    if c.toNat < 0x20 || c = '\\' then none else textTail? fuel sound (c :: acc) rest
  | _, _, _, _ => none

def textBody? (chars : List Char) : Option (Option String × List Char) :=
  textTail? (chars.length + 1) true [] chars

/-! ### Documents -/

/-- An object with the names as read; it is readable if every name is. -/
def ofMembers (members : List (Option String × Json)) : Json :=
  match members.mapM fun (name, value) => name.map (·, value) with
  | some members => .object members
  | none => .unreadable

/-- An array or object where `room` more levels of nesting are allowed. -/
def atDepth (room : Nat) (j : Json) : Json := if room = 0 then .unreadable else j

/-- Strip a keyword. -/
def keyword? : List Char → List Char → Option (List Char)
  | [], rest => some rest
  | k :: keyword, c :: rest => if k = c then keyword? keyword rest else none
  | _ :: _, [] => none

mutual

/-- A document at the start of the input. `fuel` bounds the characters consumed and `room` the
nesting still allowed. -/
def value? : Nat → Nat → List Char → Option (Json × List Char)
  | 0, _, _ => none
  | fuel + 1, room, chars =>
    match skipBlanks chars with
    | '"' :: rest => do
      match ← textBody? rest with
      | (some s, rest) => some (.text s, rest)
      | (none, rest) => some (.unreadable, rest)
    | '[' :: rest =>
      match skipBlanks rest with
      | ']' :: rest => some (atDepth room (.array []), rest)
      | rest => do
        let (items, rest) ← items? fuel (room - 1) rest
        some (atDepth room (.array items), rest)
    | '{' :: rest =>
      match skipBlanks rest with
      | '}' :: rest => some (atDepth room (.object []), rest)
      | rest => do
        let (members, rest) ← members? fuel (room - 1) rest
        some (atDepth room (ofMembers members), rest)
    | 'n' :: rest => (keyword? ['u', 'l', 'l'] rest).map (.null, ·)
    | 't' :: rest => (keyword? ['r', 'u', 'e'] rest).map (.bool true, ·)
    | 'f' :: rest => (keyword? ['a', 'l', 's', 'e'] rest).map (.bool false, ·)
    | chars => number? chars

/-- The items of an array and its closing bracket. -/
def items? : Nat → Nat → List Char → Option (List Json × List Char)
  | 0, _, _ => none
  | fuel + 1, room, chars => do
    let (item, rest) ← value? fuel room chars
    match skipBlanks rest with
    | ',' :: rest =>
      let (items, rest) ← items? fuel room rest
      some (item :: items, rest)
    | ']' :: rest => some ([item], rest)
    | _ => none

/-- The members of an object and its closing brace. -/
def members? : Nat → Nat → List Char → Option (List (Option String × Json) × List Char)
  | 0, _, _ => none
  | fuel + 1, room, chars =>
    match skipBlanks chars with
    | '"' :: rest => do
      let (name, rest) ← textBody? rest
      match skipBlanks rest with
      | ':' :: rest =>
        let (value, rest) ← value? fuel room rest
        match skipBlanks rest with
        | ',' :: rest =>
          let (members, rest) ← members? fuel room rest
          some ((name, value) :: members, rest)
        | '}' :: rest => some ([(name, value)], rest)
        | _ => none
      | _ => none
    | _ => none

end

/-- The document that a text holds. -/
def read? (text : String) : Option Json := do
  let chars := text.toList
  let (document, rest) ← value? (chars.length + 1) maxDepth chars
  if (skipBlanks rest).isEmpty then some document else none

end Json

end FederatedSearch
