import FederatedSearch.Pattern.CaseFolding
import FederatedSearch.Pattern.CharProperty
import FederatedSearch.Pattern.GeneralCategory
import FederatedSearch.Pattern.Script

/-!
# Sets of characters

The sets that regular expressions name: classes such as digits and word characters, each in a
Unicode and an ASCII reading, and the properties of the Unicode standard by their names. Names are
compared loosely: case, blanks, hyphens, underscores and a leading `is` do not count.

## Main definitions

* `CharSet` — a set of characters
* `CharSet.digit`, `CharSet.blank`, `CharSet.word` — the classes
* `CharSet.ascii?` — the classes that brackets may name
* `CharSet.property?`, `CharSet.propertyValue?` — Unicode properties by name
* `CharSet.foldCase` — a set made indifferent to case
-/

namespace FederatedSearch

abbrev CharSet := Char → Bool

namespace CharSet

def nothing : CharSet := fun _ => false

def single (c : Char) : CharSet := (· == c)

def range (first last : Char) : CharSet := fun c => first ≤ c && c ≤ last

def union (a b : CharSet) : CharSet := fun c => a c || b c

def inter (a b : CharSet) : CharSet := fun c => a c && b c

def diff (a b : CharSet) : CharSet := fun c => a c && !b c

def symmDiff (a b : CharSet) : CharSet := fun c => a c != b c

def complement (a : CharSet) : CharSet := fun c => !a c

/-- The set with the case variants of all its members. -/
def foldCase (unicode : Bool) (a : CharSet) : CharSet := fun c =>
  if unicode then a c || (caseVariants c.toNat).any fun v => a (Char.ofNat v)
  else a c || a c.toLower || a c.toUpper

/-! ### ASCII classes -/

def asciiDigit : CharSet := range '0' '9'

def asciiUpper : CharSet := range 'A' 'Z'

def asciiLower : CharSet := range 'a' 'z'

def asciiLetter : CharSet := union asciiUpper asciiLower

def asciiBlank : CharSet := fun c => ('\t' ≤ c && c ≤ '\r') || c == ' '

def asciiWord : CharSet := fun c => asciiLetter c || asciiDigit c || c == '_'

def asciiPunctuation : CharSet := fun c =>
  ('!' ≤ c && c ≤ '/') || (':' ≤ c && c ≤ '@') || ('[' ≤ c && c ≤ '\x60') || ('\x7b' ≤ c && c ≤ '~')

/-- The class of a name between `[:` and `:]`. -/
def ascii? : String → Option CharSet
  | "alnum" => some (union asciiLetter asciiDigit)
  | "alpha" => some asciiLetter
  | "ascii" => some (range '\x00' '\x7f')
  | "blank" => some fun c => c == '\t' || c == ' '
  | "cntrl" => some fun c => c ≤ '\x1f' || c == '\x7f'
  | "digit" => some asciiDigit
  | "graph" => some (range '!' '~')
  | "lower" => some asciiLower
  | "print" => some (range ' ' '~')
  | "punct" => some asciiPunctuation
  | "space" => some asciiBlank
  | "upper" => some asciiUpper
  | "word" => some asciiWord
  | "xdigit" => some fun c => asciiDigit c || ('a' ≤ c && c ≤ 'f') || ('A' ≤ c && c ≤ 'F')
  | _ => none

/-! ### Unicode properties -/

def lookUp? (tables : List (List String × CharTable)) (name : String) : Option CharSet :=
  (tables.find? fun entry => entry.1.contains name).map fun entry => entry.2.contains

/-- Categories that gather others: short and long names, and the first letters of the members. -/
def categoryGroups : List (List String × List String) := [
  (["c", "other"], ["cc", "cf", "co"]),
  (["l", "letter"], ["lu", "ll", "lt", "lm", "lo"]),
  (["lc", "casedletter"], ["lu", "ll", "lt"]),
  (["m", "mark", "combiningmark"], ["mn", "mc", "me"]),
  (["n", "number"], ["nd", "nl", "no"]),
  (["p", "punctuation", "punct"], ["pc", "pd", "ps", "pe", "pi", "pf", "po"]),
  (["s", "symbol"], ["sm", "sc", "sk", "so"]),
  (["z", "separator"], ["zs", "zl", "zp"])]

def inCategories (names : List String) : CharSet := fun c =>
  generalCategories.any fun entry => names.contains (entry.1.headD "") && entry.2.contains c

def assigned : CharSet := fun c => generalCategories.any fun entry => entry.2.contains c

def category? (name : String) : Option CharSet :=
  if name = "any" then some fun _ => true
  else if name = "ascii" then some (range '\x00' '\x7f')
  else if name = "assigned" then some assigned
  else if name = "cn" ∨ name = "unassigned" then some (complement assigned)
  else if name = "cs" ∨ name = "surrogate" then some nothing
  else
    match categoryGroups.find? fun group => group.1.contains name with
    | some (_, members) =>
      if name = "c" ∨ name = "other" then some (union (inCategories members) (complement assigned))
      else some (inCategories members)
    | none => lookUp? generalCategories name

def script? (name : String) : Option CharSet := lookUp? scripts name

/-- A name as it is compared. -/
def normalizeName (name : String) : String :=
  let chars := (name.toList.filter fun c => c.toNat < 0x80 && c != ' ' && c != '_' && c != '-').map
    Char.toLower
  match chars with
  | ['i', 's', 'c'] => "isc"
  | 'i' :: 's' :: rest => String.ofList rest
  | chars => String.ofList chars

/-- The set of a bare name: a property, a general category or a script. Three names are those of
categories although properties have them too. -/
def property? (name : String) : Option CharSet :=
  let name := normalizeName name
  let binary :=
    if ["cf", "sc", "lc"].contains name then none else lookUp? binaryProperties name
  binary.or ((category? name).or (script? name))

/-- The set of the characters for which a property has a value. -/
def propertyValue? (property value : String) : Option CharSet :=
  let property := normalizeName property
  let value := normalizeName value
  if property = "gc" ∨ property = "generalcategory" then category? value
  else if ["sc", "script", "scx", "scriptextensions"].contains property then script? value
  else none

/-! ### Classes of escapes -/

def digit (unicode : Bool) : CharSet :=
  if unicode then inCategories ["nd"] else asciiDigit

def blank (unicode : Bool) : CharSet :=
  if unicode then whiteSpace.contains else asciiBlank

/-- Letters, marks, decimal digits, connecting punctuation and joiners. -/
def word (unicode : Bool) : CharSet := fun c =>
  asciiWord c || (unicode &&
    (alphabetic.contains c || joinControl.contains c || inCategories ["mn", "mc", "me", "nd", "pc"] c))

end CharSet

end FederatedSearch
