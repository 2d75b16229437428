import FederatedSearch.Hit.Packed
import FederatedSearch.Keys.Growth
import FederatedSearch.Process

/-!
# The best hit of each key

Groups of a search share one record per join key and raise it by compare-and-exchange: read the
record, and if the offered hit is better, exchange the record for it, provided that the record is
still the one that was read. An exchange that fails reports the record it found, and the attempt is
repeated with that, up to a budget of exchanges.

`Raising` is one such update in progress. Between two of its accesses others may update the same record
(`BestPerKey.contend`). `BestPerKey.offer` is an update that nobody interferes with, in which an exchange
always succeeds.

## Main definitions

* `Raising` — an update in progress; `next` says what it does, `refused` takes in a failed exchange
* `BestPerKey` — the records; `contend`, `offer`, `hits`
-/

namespace FederatedSearch

/-! ### One update -/

/-- An attempt to raise a record to `target`. -/
structure Raising where
  target : PackedHit
  /-- The record as it was last seen. -/
  seen : PackedHit
  /-- How many exchanges may still be tried. -/
  left : Nat
  budget : Nat
deriving DecidableEq, Repr

namespace Raising

inductive Step where
  /-- The record is already as good as the target. -/
  | done
  /-- Try to exchange the record, if it still is `seen`, for the target. -/
  | exchange
  | giveUp (failure : Failure)
deriving DecidableEq, Repr

def start (target record : PackedHit) (budget : Nat) : Raising := ⟨target, record, budget, budget⟩

/-- What the update does next. -/
def next (r : Raising) : Step :=
  if r.target.word ≤ r.seen.word then .done
  else if r.left = 0 then .giveUp (.retryBudgetExceeded r.budget)
  else .exchange

/-- After an exchange that failed because the record was `found`. -/
def refused (r : Raising) (found : PackedHit) : Raising :=
  { r with seen := found, left := r.left - 1 }

end Raising

/-! ### All records -/

/-- One record per key. A key has a record as soon as a hit was offered for it. -/
structure BestPerKey where
  budget : Nat
  records : List (JoinKey × PackedHit) := []
deriving Inhabited, Repr

namespace BestPerKey

/-- The number of exchanges that an update may try unless something else is asked for. -/
def defaultBudget : Nat := 10000

def empty (budget : Nat) : BestPerKey := ⟨budget, []⟩

def size (b : BestPerKey) : Nat := b.records.length

def isEmpty (b : BestPerKey) : Bool := b.records.isEmpty

def record? (b : BestPerKey) (key : JoinKey) : Option PackedHit := b.records.lookup key

/-- Replace the record of a key, adding the key if it is new. -/
def setRecord (key : JoinKey) (record : PackedHit) :
    List (JoinKey × PackedHit) → List (JoinKey × PackedHit)
  | [] => [(key, record)]
  | r :: rest => if r.1 = key then (key, record) :: rest else r :: setRecord key record rest

/-- The record of a key, where a key without a record counts as one whose record was just made. -/
def held (b : BestPerKey) (key : JoinKey) : PackedHit := (b.record? key).getD .none

/-- The records, in which the key has one: that of a key without hits if it had none. -/
def enter (b : BestPerKey) (key : JoinKey) : BestPerKey :=
  { b with records := setRecord key (b.held key) b.records }

/-- Exchange the record of a key for the target, if it still is the one that was seen. Otherwise the
record that was found is reported. -/
def exchange (key : JoinKey) (r : Raising) (spurious : Bool) (b : BestPerKey) :
    Option PackedHit × BestPerKey :=
  if b.held key = r.seen ∧ spurious = false then
    (none, { b with records := setRecord key r.target b.records })
  else (some (b.held key), b)

/-- Go on with an update that may try `left` exchanges. -/
def attempts (key : JoinKey) (left : Nat) (r : Raising) : Process BestPerKey Unit :=
  match r.next with
  | .done => pure ()
  | .giveUp failure => .ofExcept (.error failure)
  | .exchange =>
    match left with
    | 0 => .ofExcept (.error (.retryBudgetExceeded r.budget))
    | left + 1 => do
      match ← Process.weakUpdate (exchange key r) with
      | none => return
      | some found => attempts key left (r.refused found)

/-- Raise the record of a key to a hit, if the hit is better, while others may do the same. The key has a
record afterwards even if the update failed. -/
def contend (key : JoinKey) (hit : Hit) : Process BestPerKey Unit := do
  Process.update fun b => ((), b.enter key)
  let r ← Process.update fun b => (Raising.start hit.pack (b.held key) b.budget, b)
  attempts key r.left r

/-- Raise the record of a key to a hit while nobody else updates the record. -/
def offer (b : BestPerKey) (key : JoinKey) (hit : Hit) : Except Failure Unit × BestPerKey :=
  (contend key hit).alone.result b

/-- The hits on record, in no particular order. -/
def hits (b : BestPerKey) : List Hit := b.records.map fun r => r.2.unpack

end BestPerKey

end FederatedSearch
