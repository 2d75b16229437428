/-!
# Patterns

A pattern describes sequences of symbols. Wildcards are patterns over bytes and regular
expressions are patterns over characters; the two share the matcher here.

The matcher follows all matches at once. It keeps the set of positions that some match can have
reached and moves that set through the pattern, so that the order of alternatives and the
greediness of repetitions do not come into it.

## Main definitions

* `Pattern` — the patterns
* `Pattern.advance` — the positions reached from a set of positions
* `Pattern.matchesAll`, `Pattern.matchesPart` — whether a whole sequence, or some part, matches
-/

namespace FederatedSearch

/-- A pattern over symbols of type `σ`. -/
inductive Pattern (σ : Type) where
  /-- The empty sequence. -/
  | empty
  /-- No sequence. -/
  | never
  /-- One symbol with a property. -/
  | one (property : σ → Bool)
  /-- The empty sequence at a place that is described by the symbols before and after it. -/
  | place (property : Option σ → Option σ → Bool)
  | seq (first second : Pattern σ)
  | alt (first second : Pattern σ)
  /-- At least `least` repetitions, and at most `extra` more if that is limited. -/
  | many (inner : Pattern σ) (least : Nat) (extra : Option Nat)

/-- A set of positions as a bitmap: bit `i` stands for the place before symbol `i`. -/
abbrev Positions := Nat

namespace Pattern

variable {σ : Type}

/-- The positions below `count` with a property. -/
def positionsWith (property : Nat → Bool) : Nat → Positions
  | 0 => 0
  | count + 1 =>
    let rest := positionsWith property count
    if property count then rest ||| (1 <<< count) else rest

/-- Apply a step a number of times, stopping early when nothing is left. -/
def iterate (step : Positions → Positions) : Nat → Positions → Positions
  | 0, s => s
  | count + 1, s => if s = 0 then 0 else iterate step count (step s)

/-- The positions reached by up to a number of steps, stopping early when nothing is added. -/
def spread (step : Positions → Positions) : Nat → Positions → Positions
  | 0, s => s
  | count + 1, s =>
    let wider := s ||| step s
    if wider = s then s else spread step count wider

/-- The positions at which a match can end that starts at one of the given positions. A repetition
without limit is exhausted after as many rounds as there are positions. -/
def advance (input : Array σ) : Pattern σ → Positions → Positions
  | empty, s => s
  | never, _ => 0
  | one property, s =>
    (s &&& positionsWith (fun i => input[i]?.any property) input.size) <<< 1
  | place property, s =>
    let holds := fun i => property (if i = 0 then none else input[i - 1]?) input[i]?
    s &&& positionsWith holds (input.size + 1)
  | seq first second, s => second.advance input (first.advance input s)
  | alt first second, s => first.advance input s ||| second.advance input s
  | many inner least extra, s =>
    spread (inner.advance input) (extra.getD (input.size + 1))
      (iterate (inner.advance input) least s)

def matchesAll (p : Pattern σ) (input : Array σ) : Bool :=
  (p.advance input 1).testBit input.size

def matchesPart (p : Pattern σ) (input : Array σ) : Bool :=
  p.advance input ((1 <<< (input.size + 1)) - 1) != 0

/-- Patterns one after another. -/
def sequence (parts : List (Pattern σ)) : Pattern σ :=
  match parts with
  | [] => empty
  | [p] => p
  | p :: rest => seq p (sequence rest)

/-- Patterns as alternatives; without any there is no match. -/
def oneOf (parts : List (Pattern σ)) : Pattern σ :=
  match parts with
  | [] => never
  | [p] => p
  | p :: rest => alt p (oneOf rest)

def optional (p : Pattern σ) : Pattern σ := many p 0 (some 1)

/-- Any number of any symbols. -/
def anything : Pattern σ := many (one fun _ => true) 0 none

end Pattern

end FederatedSearch
