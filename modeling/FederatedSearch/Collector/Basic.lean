import FederatedSearch.Cache.KeyColumns
import FederatedSearch.Hit.Basic
import FederatedSearch.Index.Snapshot
import FederatedSearch.Process

/-!
# Collectors

A collector turns the matches of a search into a result. The search runs over groups of segments.
Each group starts a local state, binds it to one segment after the other, feeds it the matches of
the segment in ascending order, ends the segment, and at last finishes the local state into a
partial result. The partial results of all groups, in the order of the groups, are merged into the
result. Besides, all groups of one search share a board, and each access to it is a step of its own.

When a local state is bound to a segment it says whether it wants to see the documents at all, and
for which fields it needs the join keys of the segment.

## Main definitions

* `Collector` — what to do at each of these points
* `Collector.both`, `Collector.many` — several collectors over the same matches
* `counting` — the collector that counts matches
-/

namespace FederatedSearch

/-- What a local state wants of a segment. -/
inductive Visit where
  /-- To see the matching documents. -/
  | docs
  /-- Nothing, the segment is accounted for already. -/
  | skip
deriving DecidableEq, Inhabited, Repr

/-- The answer of a local state when it is bound to a segment. -/
structure Binding (Local : Type) where
  visit : Visit := .docs
  /-- The fields whose key columns it needs. -/
  fields : List String := []
  state : Local

/-- The segment that a local state is bound to, if it was bound at all, and the key columns that it
asked for. -/
structure Bound where
  placed : Option Placed := none
  columns : String → KeyColumn := fun _ => #[]

namespace Bound

def unbound : Bound := {}

/-- The number of a document of the segment among all documents of the snapshot. -/
def absolute (b : Bound) (doc : Nat) : Nat :=
  match b.placed with
  | some placed => placed.base + doc
  | none => doc

/-- A hit in the segment as a hit in the snapshot. -/
def place (b : Bound) (hit : Hit) : Hit := { hit with doc := b.absolute hit.doc }

/-- The join key of a document of the segment. -/
def key (b : Bound) (field : String) (doc : Nat) : JoinKey := (b.columns field).key doc

end Bound

/-- What to do with the matches of a search. -/
structure Collector (Board Local Partial Fruit : Type) where
  /-- Whether matches have to come with their scores. -/
  needsScores : Bool := false
  /-- What the groups share at the start. -/
  board : Board
  start : Process Board Local
  bind : Placed → Local → Process Board (Binding Local)
  /-- Take in a match, numbered within the segment. -/
  collect : Bound → Hit → Local → Process Board Local
  endSegment : Bound → Local → Process Board Local := fun _ l => pure l
  finish : Local → Process Board Partial
  merge : Board → List Partial → Except Failure Fruit

/-- Count the matches. -/
def counting : Collector Unit Nat Nat Nat where
  board := ()
  start := pure 0
  bind _ count := pure { state := count }
  collect _ _ count := pure (count + 1)
  finish := pure
  merge _ counts := .ok (counts.foldl (· + ·) 0)

namespace Collector

variable {B C L M P Q F G : Type}

/-! ### Two collectors -/

/-- The local states of two collectors, each with a flag that says whether it wants to see the
documents of the current segment. -/
structure PairState (L M : Type) where
  first : L
  second : M
  firstOn : Bool := false
  secondOn : Bool := false

/-- Two collectors over the same matches. A segment is skipped only if both skip it, and one that
skips a segment sees nothing of it. -/
def both (a : Collector B L P F) (b : Collector C M Q G) :
    Collector (B × C) (PairState L M) (P × Q) (F × G) where
  needsScores := a.needsScores || b.needsScores
  board := (a.board, b.board)
  start := do
    let x ← a.start.focus .first
    let y ← b.start.focus .second
    return { first := x, second := y }
  bind placed l := do
    let x ← (a.bind placed l.first).focus .first
    let y ← (b.bind placed l.second).focus .second
    return {
      visit := if x.visit = .docs ∨ y.visit = .docs then .docs else .skip
      fields := x.fields ++ y.fields
      state := ⟨x.state, y.state, x.visit = .docs, y.visit = .docs⟩ }
  collect bound hit l := do
    let x ← if l.firstOn then (a.collect bound hit l.first).focus .first else pure l.first
    let y ← if l.secondOn then (b.collect bound hit l.second).focus .second else pure l.second
    return { l with first := x, second := y }
  endSegment bound l := do
    let x ← if l.firstOn then (a.endSegment bound l.first).focus .first else pure l.first
    let y ← if l.secondOn then (b.endSegment bound l.second).focus .second else pure l.second
    return { l with first := x, second := y }
  finish l := do
    let p ← (a.finish l.first).focus .first
    let q ← (b.finish l.second).focus .second
    return (p, q)
  merge board partials := do
    let x ← a.merge board.1 (partials.map (·.1))
    let y ← b.merge board.2 (partials.map (·.2))
    return (x, y)

/-! ### Many collectors -/

/-- The local state of one of many collectors, with a flag that says whether it wants to see the
documents of the current segment. -/
structure Member (L : Type) where
  state : L
  isOn : Bool := false

/-- Start each member. -/
def startEach : List (Collector B L P F) → Process (List B) (List (Member L))
  | [] => pure []
  | c :: cs => do
    let l ← c.start.focus (.head c.board)
    let rest ← (startEach cs).focus .tail
    return { state := l } :: rest

/-- Run a step on each member that is on, each with its own board. -/
def eachOn (step : Collector B L P F → L → Process B L) :
    List (Collector B L P F) → List (Member L) → Process (List B) (List (Member L))
  | c :: cs, m :: ms => do
    let x ← if m.isOn then (step c m.state).focus (.head c.board) else pure m.state
    let rest ← (eachOn step cs ms).focus .tail
    return { m with state := x } :: rest
  | _, _ => pure []

/-- Bind each member. -/
def bindEach (placed : Placed) :
    List (Collector B L P F) → List (Member L) → Process (List B) (Binding (List (Member L)))
  | c :: cs, m :: ms => do
    let x ← (c.bind placed m.state).focus (.head c.board)
    let rest ← (bindEach placed cs ms).focus .tail
    return {
      visit := if x.visit = .docs then .docs else rest.visit
      fields := x.fields ++ rest.fields
      state := ⟨x.state, x.visit = .docs⟩ :: rest.state }
  | _, _ => pure { visit := .skip, state := [] }

/-- Finish each member. -/
def finishEach : List (Collector B L P F) → List (Member L) → Process (List B) (List P)
  | c :: cs, m :: ms => do
    let p ← (c.finish m.state).focus (.head c.board)
    let rest ← (finishEach cs ms).focus .tail
    return p :: rest
  | _, _ => pure []

/-- Merge, for each collector, what the groups have for it. -/
def mergeEach : List (Collector B L P F) → List B → List (List P) → Except Failure (List F)
  | [], _, _ => .ok []
  | c :: cs, boards, partials => do
    let x ← c.merge (boards.headD c.board) (partials.filterMap List.head?)
    let rest ← mergeEach cs boards.tail (partials.map List.tail)
    return x :: rest

/-- Any number of collectors of one kind over the same matches. -/
def many (cs : List (Collector B L P F)) :
    Collector (List B) (List (Member L)) (List P) (List F) where
  needsScores := cs.any (·.needsScores)
  board := cs.map (·.board)
  start := startEach cs
  bind placed ms := bindEach placed cs ms
  collect bound hit ms := eachOn (fun c l => c.collect bound hit l) cs ms
  endSegment bound ms := eachOn (fun c l => c.endSegment bound l) cs ms
  finish ms := finishEach cs ms
  merge boards partials := mergeEach cs boards partials

end Collector

end FederatedSearch
