import FederatedSearch.Pattern.Basic

/-!
# Wildcards

A wildcard pattern describes a whole value, byte by byte. `?` stands for one byte and `*` for any
number of them, `/` included. `[…]` is a class of bytes and `[!…]` its complement; `{…,…}` lists
alternatives, which may be nested; a backslash takes away the meaning of the character after it.
Two stars that make up a whole component between slashes stand for any number of components.

Characters of several bytes are written out byte by byte, also inside a class, where each byte
counts on its own.

## Main definitions

* `Wildcard.Token` — what a pattern is made of
* `Wildcard.parse` — the tokens of a pattern, or what is wrong with it
* `Wildcard.compile` — the pattern over bytes
-/

namespace FederatedSearch

namespace Wildcard

/-- What can be wrong with a wildcard pattern. -/
inductive Fault where
  | unclosedClass
  | reversedRange (first last : Char)
  | unopenedAlternatives
  | unclosedAlternatives
  | danglingEscape
deriving DecidableEq, Repr

def Fault.message : Fault → String
  | unclosedClass => "unclosed character class; missing ']'"
  | reversedRange first last =>
    "invalid range; '" ++ first.toString ++ "' > '" ++ last.toString ++ "'"
  | unopenedAlternatives =>
    "unopened alternate group; missing '\x7b' (maybe escape '\x7d' with '[\x7d]'?)"
  | unclosedAlternatives =>
    "unclosed alternate group; missing '\x7d' (maybe escape '\x7b' with '[\x7b]'?)"
  | danglingEscape => "dangling '\\'"

inductive Token where
  | literal (c : Char)
  | anyByte
  | anyBytes
  /-- Any components in front of the pattern. -/
  | leading
  /-- Any components after the pattern. -/
  | trailing
  /-- Any components between two parts. -/
  | between
  | byteClass (negated : Bool) (ranges : List (Char × Char))
  | alternatives (branches : List (List Token))
deriving Inhabited

/-! ### Parsing -/

/-- The tokens read so far. A branch is the tokens of one alternative, last token first; the
innermost branch is in front. `openings` holds, for each open group, how many branches there were
before it. -/
structure Progress where
  branches : List (List Token) := [[]]
  openings : List Nat := []

namespace Progress

def push (p : Progress) (t : Token) : Progress :=
  match p.branches with
  | [] => { p with branches := [[t]] }
  | branch :: rest => { p with branches := (t :: branch) :: rest }

def inGroup (p : Progress) : Bool := !p.openings.isEmpty

def current (p : Progress) : List Token := p.branches.headD []

def openGroup (p : Progress) : Progress :=
  { branches := [] :: p.branches, openings := p.branches.length :: p.openings }

def nextBranch (p : Progress) : Progress := { p with branches := [] :: p.branches }

def closeGroup (p : Progress) : Except Fault Progress :=
  match p.openings with
  | [] => .error .unopenedAlternatives
  | start :: openings =>
    let inner := p.branches.take (p.branches.length - start)
    let group := Token.alternatives (inner.map List.reverse).reverse
    .ok (Progress.push ⟨p.branches.drop (p.branches.length - start), openings⟩ group)

/-- Two stars as a component of their own take the place of the slash before them, unless that is
part of such a component already. -/
def replaceSlash (p : Progress) (t : Token) : Progress :=
  match p.branches with
  | (.leading :: _) :: _ => p
  | (.trailing :: _) :: _ => p
  | (_ :: branch) :: rest => { p with branches := (t :: branch) :: rest }
  | _ => p.push t

end Progress

/-- Extend the last range of a class to end at a character. -/
def closeRange (c : Char) : List (Char × Char) → Except Fault (List (Char × Char))
  | (first, _) :: rest =>
    if c < first then .error (.reversedRange first c) else .ok ((first, c) :: rest)
  | [] => .ok [(c, c)]

/-- The rest of a class after its opening, up to its closing bracket. A bracket or a hyphen in
front stands for itself, and so does a hyphen at the end. -/
def classTail (negated first inRange : Bool) (ranges : List (Char × Char)) :
    List Char → Except Fault (Token × List Char)
  | [] => .error .unclosedClass
  | ']' :: rest =>
    if first then classTail negated false false [(']', ']')] rest
    else
      let ranges := if inRange then ('-', '-') :: ranges else ranges
      .ok (.byteClass negated ranges.reverse, rest)
  | '-' :: rest =>
    if first then classTail negated false false [('-', '-')] rest
    else if inRange then do
      classTail negated false false (← closeRange '-' ranges) rest
    else classTail negated false true ranges rest
  | c :: rest =>
    if inRange then do
      classTail negated false false (← closeRange c ranges) rest
    else classTail negated false false ((c, c) :: ranges) rest

def parseClass (chars : List Char) : Except Fault (Token × List Char) :=
  match chars with
  | '!' :: rest => classTail true true false [] rest
  | '^' :: rest => classTail true true false [] rest
  | rest => classTail false true false [] rest

/-- What follows two stars: whether they end a component, whether they end the pattern or the
alternative, and the rest with the closing slash taken off. -/
def afterStars (inGroup : Bool) : List Char → Option (Bool × List Char)
  | [] => some (true, [])
  | '/' :: rest => some (false, rest)
  | c :: rest => if inGroup && (c = ',' || c = '}') then some (true, c :: rest) else none

/-- Two stars. `last` is the character before them. -/
def parseStars (p : Progress) (last : Option Char) (rest : List Char) :
    Progress × List Char :=
  let plain := ((p.push .anyBytes).push .anyBytes, rest)
  if p.current.isEmpty then
    match rest with
    | [] => (p.push .leading, [])
    | '/' :: rest => (p.push .leading, rest)
    | _ => plain
  else if last = some '/' || (p.inGroup && (last = some ',' || last = some '{')) then
    match afterStars p.inGroup rest with
    | some (true, rest) => (p.replaceSlash .trailing, rest)
    | some (false, rest) => (p.replaceSlash .between, rest)
    | none => plain
  else plain

/-- The last character of what was consumed between two inputs. -/
def lastConsumed (before after : List Char) : Option Char :=
  (before.take (before.length - after.length)).getLast?

/-- Read tokens to the end of the pattern. Each step consumes a character, so that the length of
the pattern is fuel enough. -/
def parseFrom : Nat → Progress → Option Char → List Char → Except Fault Progress
  | _, p, _, [] => .ok p
  | 0, p, _, _ => .ok p
  | fuel + 1, p, last, c :: rest =>
    match c with
    | '?' => parseFrom fuel (p.push .anyByte) (some c) rest
    | '*' =>
      match rest with
      | '*' :: rest =>
        let (p, after) := parseStars p last rest
        parseFrom fuel p ((lastConsumed rest after).or (some c)) after
      | rest => parseFrom fuel (p.push .anyBytes) (some c) rest
    | '[' => do
      let (t, rest) ← parseClass rest
      parseFrom fuel (p.push t) (some ']') rest
    | '{' => parseFrom fuel p.openGroup (some c) rest
    | '}' => do parseFrom fuel (← p.closeGroup) (some c) rest
    | ',' =>
      parseFrom fuel (if p.inGroup then p.nextBranch else p.push (.literal ',')) (some c) rest
    | '\\' =>
      match rest with
      | [] => .error .danglingEscape
      | e :: rest => parseFrom fuel (p.push (.literal e)) (some e) rest
    | c => parseFrom fuel (p.push (.literal c)) (some c) rest

/-- The tokens of a pattern. -/
def parse (pattern : String) : Except Fault (List Token) := do
  let chars := pattern.toList
  let p ← parseFrom chars.length {} none chars
  if p.inGroup then .error .unclosedAlternatives else .ok p.current.reverse

/-! ### Compiling -/

def bytesOf (c : Char) : List UInt8 := c.toString.toUTF8.data.toList

def slash : UInt8 := 47

/-- The bytes of a range from one character to another: the bytes of both, with a range between
the last byte of the first and the first byte of the last. -/
def inCharRange (first last : Char) (b : UInt8) : Bool :=
  if first = last then (bytesOf first).contains b
  else
    let low := bytesOf first
    let high := bytesOf last
    low.dropLast.contains b || (high.drop 1).contains b ||
      (low.getLastD 0 ≤ b && b ≤ high.headD 0)

mutual

/-- Whether tokens describe nothing but the empty sequence in such a way that they leave no trace
in a group of alternatives. -/
def blank : List Token → Bool
  | [] => true
  | .alternatives branches :: rest => allBlank branches && blank rest
  | _ :: _ => false

def allBlank : List (List Token) → Bool
  | [] => true
  | b :: rest => blank b && allBlank rest

end

mutual

/-- The pattern of a list of tokens. -/
def compileTokens : List Token → Pattern UInt8
  | [] => .empty
  | t :: rest => .seq (compileToken t) (compileTokens rest)

def compileToken : Token → Pattern UInt8
  | .literal c => .sequence ((bytesOf c).map fun b => .one (· == b))
  | .anyByte => .one fun _ => true
  | .anyBytes => .anything
  | .leading => .alt (.optional (.one (· == slash))) (.seq .anything (.one (· == slash)))
  | .trailing => .seq (.one (· == slash)) .anything
  | .between =>
    .alt (.one (· == slash)) (.sequence [.one (· == slash), .anything, .one (· == slash)])
  | .byteClass negated ranges =>
    .one fun b => (ranges.any fun r => inCharRange r.1 r.2 b) != negated
  | .alternatives branches =>
    if allBlank branches then .empty else .oneOf (compileBranches branches)

/-- The patterns of the alternatives that are not blank. -/
def compileBranches : List (List Token) → List (Pattern UInt8)
  | [] => []
  | b :: rest => if blank b then compileBranches rest else compileTokens b :: compileBranches rest

end

/-- The pattern over bytes. A pattern of two stars alone describes everything. -/
def compile (pattern : String) : Except Fault (Pattern UInt8) := do
  match ← parse pattern with
  | [.leading] => .ok .anything
  | tokens => .ok (compileTokens tokens)

/-- Whether a compiled pattern describes a text. -/
def describes (p : Pattern UInt8) (text : String) : Bool := p.matchesAll text.toUTF8.data

/-- The text that reports a fault. -/
def report (pattern : String) (fault : Fault) : String :=
  "error parsing glob '" ++ pattern ++ "': " ++ fault.message

end Wildcard

end FederatedSearch
