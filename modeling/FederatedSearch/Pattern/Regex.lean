import FederatedSearch.Number.Reading
import FederatedSearch.Pattern.Basic
import FederatedSearch.Pattern.CharSet

/-!
# Regular expressions

A regular expression looks for a part of a text. The syntax has literals, classes, alternatives,
groups, repetitions, places (ends of text and line, word boundaries) and flags; it has neither
back references nor a look ahead or behind. Greediness does not matter, as only the existence of a
match is asked for, but its marks are accepted.

Matching is by character. With the flag `u` switched off, classes and boundaries mean ASCII, and
an expression that could match half a character is refused.

## Main definitions

* `Regex.Mode` — the flags
* `Regex.compile?` — the pattern over characters, unless the expression is malformed
-/

namespace FederatedSearch

namespace Regex

/-- The flags that are in force at a place of the expression. -/
structure Mode where
  ignoreCase : Bool := false
  multiLine : Bool := false
  dotAll : Bool := false
  unicode : Bool := true
  carriageReturns : Bool := false
  verbose : Bool := false

/-- What a single symbol of an expression or a class stands for. -/
inductive Atom where
  | literal (c : Char)
  | charClass (s : CharSet)
  | place (property : Option Char → Option Char → Bool)

/-! ### Blanks and comments -/

/-- In a verbose expression blanks and comments to the end of the line are skipped. The first
flag says whether a comment is open. -/
def skipVerbose : Bool → List Char → List Char
  | _, [] => []
  | true, c :: rest => skipVerbose (c ≠ '\n') rest
  | false, c :: rest =>
    if c = '#' then skipVerbose true rest
    else if whiteSpace.contains c then skipVerbose false rest
    else c :: rest

def skip (mode : Mode) (chars : List Char) : List Char :=
  if mode.verbose then skipVerbose false chars else chars

/-! ### Places -/

def isWord (mode : Mode) (c : Option Char) : Bool := c.any (CharSet.word mode.unicode)

def lineStart (mode : Mode) (before after : Option Char) : Bool :=
  if !mode.multiLine then before.isNone
  else if mode.carriageReturns then
    before.isNone || before == some '\n' || (before == some '\r' && after != some '\n')
  else before.isNone || before == some '\n'

def lineEnd (mode : Mode) (before after : Option Char) : Bool :=
  if !mode.multiLine then after.isNone
  else if mode.carriageReturns then
    after.isNone || after == some '\r' || (after == some '\n' && before != some '\r')
  else after.isNone || after == some '\n'

def boundary (mode : Mode) (before after : Option Char) : Bool :=
  isWord mode before != isWord mode after

def wordStart (mode : Mode) (before after : Option Char) : Bool :=
  !isWord mode before && isWord mode after

def wordEnd (mode : Mode) (before after : Option Char) : Bool :=
  isWord mode before && !isWord mode after

/-- The boundaries that are written with a name. -/
def namedBoundary? (mode : Mode) : String → Option Atom
  | "start" => some (.place (wordStart mode))
  | "end" => some (.place (wordEnd mode))
  | "start-half" => some (.place fun before _ => !isWord mode before)
  | "end-half" => some (.place fun _ after => !isWord mode after)
  | _ => none

/-! ### Escapes -/

/-- Whether a set can be used where characters are matched by their bytes: it must not tell the
bytes of a longer character apart, so it must contain ASCII only. -/
def admissible (mode : Mode) (s : CharSet) : Bool := mode.unicode || !s '\x80'

def negateIf (negated : Bool) (s : CharSet) : CharSet := if negated then s.complement else s

def charOfPoint? (point : Nat) : Option Char :=
  if point < 0xD800 ∨ (0xDFFF < point ∧ point < 0x110000) then some (Char.ofNat point) else none

/-- A character by its code point: two, four or eight digits, or any number of them in braces. -/
def hexEscape? (mode : Mode) (digits : Nat) (chars : List Char) : Option (Atom × List Char) :=
  match skip mode chars with
  | '{' :: rest => do
    let inside := rest.takeWhile (· ≠ '}')
    let inside := if mode.verbose then inside.filter (!whiteSpace.contains ·) else inside
    let '}' :: rest := rest.dropWhile (· ≠ '}') | none
    if inside.isEmpty then none
    else
      let values ← inside.mapM hexDigit?
      let c ← charOfPoint? (values.foldl (· * 16 + ·) 0)
      some (.literal c, rest)
  | rest => do
    if rest.length < digits then none
    else
      let values ← (rest.take digits).mapM hexDigit?
      let c ← charOfPoint? (values.foldl (· * 16 + ·) 0)
      if !mode.unicode && digits = 2 && 0x7f < c.toNat then none
      else some (.literal c, rest.drop digits)

/-- A name with an optional value: `name`, `name=value`, `name:value` or `name!=value`. -/
def namedProperty? (name : List Char) : Option CharSet :=
  let isMark := fun c => c = '=' || c = ':'
  let first := name.takeWhile (!isMark ·)
  match name.dropWhile (!isMark ·) with
  | [] => CharSet.property? (String.ofList name)
  | mark :: value =>
    if mark = '=' && first.getLast? = some '!' then
      (CharSet.propertyValue? (String.ofList first.dropLast) (String.ofList value)).map
        CharSet.complement
    else CharSet.propertyValue? (String.ofList first) (String.ofList value)

def propertyEscape? (mode : Mode) (negated : Bool) (chars : List Char) :
    Option (Atom × List Char) := do
  if !mode.unicode then none
  else
    let (set, rest) ←
      match skip mode chars with
      | '{' :: rest => do
        let '}' :: after := rest.dropWhile (· ≠ '}') | none
        let name := rest.takeWhile (· ≠ '}')
        let name := if mode.verbose then name.filter (!whiteSpace.contains ·) else name
        some (← namedProperty? name, after)
      | c :: rest => if c = '\\' then none else some (← CharSet.property? c.toString, rest)
      | [] => none
    some (.charClass (negateIf negated set), rest)

def classEscape? (mode : Mode) (negated : Bool) (set : CharSet) : Option Atom :=
  let set := negateIf negated set
  if admissible mode set then some (.charClass set) else none

/-- A word boundary, or one of the boundaries with a name in braces. Braces that do not start like
a name are left to be a repetition. -/
def boundaryEscape? (mode : Mode) (rest : List Char) : Option (Atom × List Char) :=
  let plain := (Atom.place (boundary mode), rest)
  let isNameChar := fun c : Char => CharSet.asciiLetter c || c = '-'
  match rest with
  | '{' :: inner =>
    let inner := skip mode inner
    if inner.isEmpty then none
    else if !isNameChar (inner.headD ' ') then some plain
    else do
      let '}' :: after := inner.dropWhile (· ≠ '}') | none
      let name := inner.takeWhile (· ≠ '}')
      let name := if mode.verbose then name.filter (!whiteSpace.contains ·) else name
      some (← namedBoundary? mode (String.ofList name), after)
  | _ => some plain

/-- What follows a backslash. Punctuation stands for itself; letters and digits without a meaning
are refused. -/
def escape? (mode : Mode) : List Char → Option (Atom × List Char)
  | [] => none
  | c :: rest =>
    match c with
    | 'x' => hexEscape? mode 2 rest
    | 'u' => hexEscape? mode 4 rest
    | 'U' => hexEscape? mode 8 rest
    | 'p' => propertyEscape? mode false rest
    | 'P' => propertyEscape? mode true rest
    | 'd' => (classEscape? mode false (.digit mode.unicode)).map (·, rest)
    | 'D' => (classEscape? mode true (.digit mode.unicode)).map (·, rest)
    | 's' => (classEscape? mode false (.blank mode.unicode)).map (·, rest)
    | 'S' => (classEscape? mode true (.blank mode.unicode)).map (·, rest)
    | 'w' => (classEscape? mode false (.word mode.unicode)).map (·, rest)
    | 'W' => (classEscape? mode true (.word mode.unicode)).map (·, rest)
    | 'a' => some (.literal '\x07', rest)
    | 'f' => some (.literal '\x0c', rest)
    | 't' => some (.literal '\t', rest)
    | 'n' => some (.literal '\n', rest)
    | 'r' => some (.literal '\r', rest)
    | 'v' => some (.literal '\x0b', rest)
    | 'A' => some (.place fun before _ => before.isNone, rest)
    | 'z' => some (.place fun _ after => after.isNone, rest)
    | 'b' => boundaryEscape? mode rest
    | 'B' => some (.place fun before after => !boundary mode before after, rest)
    | '<' => some (.place (wordStart mode), rest)
    | '>' => some (.place (wordEnd mode), rest)
    | c =>
      if 0x7f < c.toNat || CharSet.asciiLetter c || CharSet.asciiDigit c then none
      else some (.literal c, rest)

/-! ### Classes in brackets -/

/-- Operators between the parts of a class; they group to the left. -/
inductive SetOperator where
  | inter
  | diff
  | symmDiff

/-- The two-character marks of the operators. -/
def SetOperator.ofMark? : List Char → Option (SetOperator × List Char)
  | '&' :: '&' :: rest => some (inter, rest)
  | '-' :: '-' :: rest => some (diff, rest)
  | '~' :: '~' :: rest => some (symmDiff, rest)
  | _ => none

def foldIf (mode : Mode) (s : CharSet) : CharSet :=
  if mode.ignoreCase then s.foldCase mode.unicode else s

/-- Apply a pending operator to the part after it. -/
def applyPending (mode : Mode) (pending : Option (SetOperator × CharSet)) (part : CharSet) :
    CharSet :=
  match pending with
  | none => part
  | some (op, left) =>
    let left := foldIf mode left
    let right := foldIf mode part
    match op with
    | .inter => left.inter right
    | .diff => left.diff right
    | .symmDiff => left.symmDiff right

/-- A named class such as `[:alpha:]`, after its opening bracket. -/
def namedClass? (chars : List Char) : Option (CharSet × List Char) :=
  match chars with
  | ':' :: rest => do
    let (negated, rest) :=
      match rest with
      | '^' :: rest => (true, rest)
      | rest => (false, rest)
    let ':' :: ']' :: after := rest.dropWhile (· ≠ ':') | none
    let set ← CharSet.ascii? (String.ofList (rest.takeWhile (· ≠ ':')))
    some (negateIf negated set, after)
  | _ => none

/-- One symbol of a class. -/
def classSymbol? (mode : Mode) : List Char → Option (Atom × List Char)
  | [] => none
  | '\\' :: rest => escape? mode rest
  | c :: rest => some (.literal c, rest)

/-- A character that may stand in a class. -/
def classLiteral? (mode : Mode) : Atom → Option Char
  | .literal c => if mode.unicode || c.toNat < 0x80 then some c else none
  | _ => none

/-- A symbol of a class, or a range between two. A hyphen before the end of the class or before
another hyphen makes no range. -/
def classRange? (mode : Mode) (chars : List Char) : Option (CharSet × List Char) := do
  let (first, rest) ← classSymbol? mode chars
  let rest := skip mode rest
  let single : Option (CharSet × List Char) :=
    match first with
    | .charClass s => some (s, rest)
    | first => (classLiteral? mode first).map fun c => (.single c, rest)
  match rest with
  | [] => none
  | '-' :: after =>
    match skip mode after with
    | [] => none
    | ']' :: _ => single
    | next :: more =>
      if after.head? = some '-' || next = '-' then single
      else
        let (last, rest) ← classSymbol? mode (next :: more)
        let first ← classLiteral? mode first
        let last ← classLiteral? mode last
        if last < first then none else some (.range first last, rest)
  | _ => single

/-- Leading hyphens stand for themselves, and so does a leading closing bracket. -/
def leadingLiterals (mode : Mode) : List Char → CharSet × List Char
  | '-' :: rest =>
    let rec hyphens : List Char → List Char
      | '-' :: rest => hyphens rest
      | rest => rest
    (.single '-', skip mode (hyphens (skip mode rest)))
  | ']' :: rest => (.single ']', skip mode rest)
  | rest => (.nothing, rest)

mutual

/-- A class after its opening bracket. -/
def bracket? : Nat → Mode → List Char → Option (CharSet × List Char)
  | 0, _, _ => none
  | fuel + 1, mode, chars =>
    let chars := skip mode chars
    let (negated, chars) :=
      match chars with
      | '^' :: rest => (true, skip mode rest)
      | chars => (false, chars)
    let (start, chars) := leadingLiterals mode chars
    bracketTail? fuel mode negated none start chars

/-- The rest of a class. `pending` is the operator before the current part with what is to the left
of it, and `part` is the current part so far. -/
def bracketTail? : Nat → Mode → Bool → Option (SetOperator × CharSet) → CharSet → List Char →
    Option (CharSet × List Char)
  | 0, _, _, _, _, _ => none
  | fuel + 1, mode, negated, pending, part, chars =>
    let chars := skip mode chars
    match SetOperator.ofMark? chars with
    | some (op, rest) =>
      bracketTail? fuel mode negated (some (op, applyPending mode pending part)) .nothing rest
    | none =>
      match chars with
      | [] => none
      | ']' :: rest =>
        let set := negateIf negated (foldIf mode (applyPending mode pending part))
        if admissible mode set then some (set, rest) else none
      | '[' :: rest =>
        match namedClass? rest with
        | some (set, rest) => bracketTail? fuel mode negated pending (part.union set) rest
        | none => do
          let (set, rest) ← bracket? fuel mode rest
          bracketTail? fuel mode negated pending (part.union set) rest
      | chars => do
        let (set, rest) ← classRange? mode chars
        bracketTail? fuel mode negated pending (part.union set) rest

end

/-! ### Groups -/

def setFlag? (mode : Mode) (value : Bool) : Char → Option Mode
  | 'i' => some { mode with ignoreCase := value }
  | 'm' => some { mode with multiLine := value }
  | 's' => some { mode with dotAll := value }
  | 'U' => some mode
  | 'u' => some { mode with unicode := value }
  | 'R' => some { mode with carriageReturns := value }
  | 'x' => some { mode with verbose := value }
  | _ => none

/-- Flags up to their end. No flag may be repeated, the hyphen before those to switch off neither,
and it must not come last. Returns the mode, the closing character, how many marks there were, and
the rest. -/
def flags? (mode : Mode) (value : Bool) (seen : List Char) :
    List Char → Option (Mode × Char × Nat × List Char)
  | [] => none
  | c :: rest =>
    if c = ':' || c = ')' then
      if seen.head? = some '-' then none else some (mode, c, seen.length, rest)
    else if seen.contains c then none
    else if c = '-' then flags? mode false (c :: seen) rest
    else do flags? (← setFlag? mode value c) value (c :: seen) rest

def isNameStart (c : Char) : Bool := c = '_' || alphabetic.contains c

def isNamePart (c : Char) : Bool :=
  c = '_' || c = '.' || c = '[' || c = ']' || alphabetic.contains c ||
    CharSet.inCategories ["nd", "nl", "no"] c

/-- The name of a group, which must be new. -/
def groupName? (names : List String) (chars : List Char) : Option (String × List Char) := do
  let name := chars.takeWhile (· ≠ '>')
  let '>' :: rest := chars.dropWhile (· ≠ '>') | none
  let first :: others := name | none
  if isNameStart first && others.all isNamePart && !names.contains (String.ofList name) then
    some (String.ofList name, rest)
  else none

/-- How a group begins. -/
inductive Opening where
  /-- Not a group: flags for what follows. -/
  | setMode (mode : Mode)
  /-- A group, with the flags inside it and its name. -/
  | group (mode : Mode) (name : Option String)

def opening? (mode : Mode) (names : List String) (chars : List Char) :
    Option (Opening × List Char) :=
  match skip mode chars with
  | '?' :: '=' :: _ => none
  | '?' :: '!' :: _ => none
  | '?' :: '<' :: '=' :: _ => none
  | '?' :: '<' :: '!' :: _ => none
  | '?' :: 'P' :: '<' :: rest => do
    let (name, rest) ← groupName? names rest
    some (.group mode (some name), rest)
  | '?' :: '<' :: rest => do
    let (name, rest) ← groupName? names rest
    some (.group mode (some name), rest)
  | '?' :: rest => do
    let (inner, close, count, rest) ← flags? mode true [] rest
    if close = ':' then some (.group inner none, rest)
    else if count = 0 then none
    else some (.setMode inner, rest)
  | rest => some (.group mode none, rest)

/-! ### Repetitions -/

/-- A count of at most 32 bits, with blanks around it. -/
def count? (chars : List Char) : Option (Nat × List Char) :=
  let chars := chars.dropWhile whiteSpace.contains
  let digits := chars.takeWhile isDigit
  let rest := (chars.dropWhile isDigit).dropWhile whiteSpace.contains
  let value := digitsValue 0 digits
  if digits.isEmpty ∨ UInt32.size ≤ value then none else some (value, rest)

/-- The bounds of a counted repetition after its opening brace: the least count, and how many more
are allowed if that is limited. -/
def bounds? (mode : Mode) (chars : List Char) : Option (Nat × Option Nat × List Char) := do
  let (least, rest) ← count? (skip mode chars)
  match rest with
  | '}' :: rest => some (least, some 0, rest)
  | ',' :: rest =>
    match skip mode rest with
    | '}' :: rest => some (least, none, rest)
    | rest =>
      let (greatest, rest) ← count? rest
      let '}' :: rest := rest | none
      if greatest < least then none else some (least, some (greatest - least), rest)
  | _ => none

/-- Skip the mark that makes a repetition prefer fewer rounds. -/
def skipLazy : List Char → List Char
  | '?' :: rest => rest
  | rest => rest

/-- A repetition mark: the least count, how many more, and the rest. `none` on the outside is a
malformed mark, inside it is something else. -/
def repetition? (mode : Mode) : List Char → Option (Option (Nat × Option Nat × List Char))
  | '?' :: rest => some (some (0, some 1, skipLazy rest))
  | '*' :: rest => some (some (0, none, skipLazy rest))
  | '+' :: rest => some (some (1, none, skipLazy rest))
  | '{' :: rest => do
    let (least, extra, rest) ← bounds? mode rest
    some (some (least, extra, skipLazy (skip mode rest)))
  | _ => some none

/-! ### Expressions -/

def literalPattern (mode : Mode) (c : Char) : Pattern Char :=
  .one (foldIf mode (.single c))

def atomPattern (mode : Mode) : Atom → Pattern Char
  | .literal c => literalPattern mode c
  | .charClass s => .one s
  | .place property => .place property

/-- Any character, by default except one that ends a line. -/
def dot? (mode : Mode) : Option (Pattern Char) :=
  if !mode.unicode then none
  else some (.one fun c =>
    mode.dotAll || (c != '\n' && !(mode.carriageReturns && c == '\r')))

/-- The parts of a concatenation so far, last part first. Flags are parts too, as no repetition can
apply to them. -/
abbrev Parts := List (Option (Pattern Char))

def joinParts (parts : Parts) : Pattern Char := .sequence (parts.reverse.filterMap id)

/-- An expression up to the end of its group. `branches` are the alternatives before the current
one. Returns the pattern, the names of groups so far, and the rest, which is empty or starts with
the closing parenthesis. -/
def expression? : Nat → Mode → List String → List (Pattern Char) → Parts → List Char →
    Option (Pattern Char × List String × List Char)
  | 0, _, _, _, _, _ => none
  | fuel + 1, mode, names, branches, parts, chars =>
    let chars := skip mode chars
    let finish := fun rest =>
      some (Pattern.oneOf (joinParts parts :: branches).reverse, names, rest)
    match repetition? mode chars with
    | none => none
    | some (some (least, extra, rest)) =>
      match parts with
      | some part :: others =>
        expression? fuel mode names branches (some (.many part least extra) :: others) rest
      | _ => none
    | some none =>
      match chars with
      | [] => finish []
      | ')' :: rest => finish (')' :: rest)
      | '|' :: rest => expression? fuel mode names (joinParts parts :: branches) [] rest
      | '(' :: rest => do
        match ← opening? mode names rest with
        | (.setMode inner, rest) => expression? fuel inner names branches (none :: parts) rest
        | (.group inner name, rest) =>
          let (pattern, names, rest) ← expression? fuel inner (name.toList ++ names) [] [] rest
          let ')' :: rest := rest | none
          expression? fuel mode names branches (some pattern :: parts) rest
      | '[' :: rest => do
        let (set, rest) ← bracket? (rest.length + 1) mode rest
        expression? fuel mode names branches (some (.one set) :: parts) rest
      | '.' :: rest => do
        expression? fuel mode names branches (some (← dot? mode) :: parts) rest
      | '^' :: rest =>
        expression? fuel mode names branches (some (.place (lineStart mode)) :: parts) rest
      | '$' :: rest =>
        expression? fuel mode names branches (some (.place (lineEnd mode)) :: parts) rest
      | '\\' :: rest => do
        let (atom, rest) ← escape? mode rest
        expression? fuel mode names branches (some (atomPattern mode atom) :: parts) rest
      | c :: rest =>
        expression? fuel mode names branches (some (literalPattern mode c) :: parts) rest

/-- The pattern over characters. Every step of the parser consumes a character or ends a level, so
that twice the length is fuel enough. -/
def compile? (expression : String) : Option (Pattern Char) := do
  let chars := expression.toList
  let (pattern, _, []) ← expression? (2 * chars.length + 2) {} [] [] [] chars | none
  some pattern

/-- Whether a compiled expression matches some part of a text. -/
def findsIn (p : Pattern Char) (text : String) : Bool := p.matchesPart text.toList.toArray

/-- The text that reports a malformed expression. -/
def report (expression : String) : String :=
  "regex parse error:\n    " ++ expression ++ "\nerror: malformed expression"

end Regex

end FederatedSearch
