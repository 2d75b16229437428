import FederatedSearch.Failure
import FederatedSearch.Keys.Growth

/-!
# Bitsets of join keys

A set of join keys as words of 64 bits: bit `k % 64` of word `k / 64` says whether key `k` is in
the set. The set has a capacity, the number of bits in its words, which never decreases. Two sets
are equal when they hold the same keys, whatever their capacities.

## Main definitions

* `KeyBits` — the set; `contains`, `insert?`, `ofList?`
* `KeyBits.union`, `inter`, `diff`, `flip` — set operations, word by word
* `KeyBits.toList` — the keys in ascending order
* `KeyBits.describe` — a short text for logs
-/

namespace FederatedSearch

/-- A growable bitset over join keys. -/
structure KeyBits where
  words : Array UInt64 := #[]
deriving Inhabited, Repr

namespace KeyBits

def empty : KeyBits := {}

/-- A set able to hold the keys below `bits` without growing. -/
def withCapacity (bits : Nat) : KeyBits := ⟨Array.replicate ((bits + 63) / 64) 0⟩

/-- Capacity in bits. -/
def capacity (s : KeyBits) : Nat := s.words.size * 64

/-- Word `i`; beyond the capacity there are only zeros. -/
def word (s : KeyBits) (i : Nat) : UInt64 := s.words.getD i 0

def testBit (w : UInt64) (b : Nat) : Bool := w.toBitVec.getLsbD b

def contains (s : KeyBits) (key : JoinKey) : Bool := testBit (s.word (key / 64)) (key % 64)

/-- Grow until `bits` fit. -/
def ensureCapacity (s : KeyBits) (bits : Nat) : KeyBits :=
  let needed := (bits + 63) / 64
  let length := grownLength s.words.size needed
  ⟨s.words ++ Array.replicate (length - s.words.size) 0⟩

/-- Set the bit of a key, growing to hold it. -/
def set (s : KeyBits) (key : JoinKey) : KeyBits :=
  let s := s.ensureCapacity (key + 1)
  ⟨s.words.modify (key / 64) (· ||| (1 <<< UInt64.ofNat (key % 64)))⟩

/-- Add a key. The flag says whether it is new. Key 0 is never added, and a key beyond `maxKey` is
refused. -/
def insert? (s : KeyBits) (key : JoinKey) : Except Failure (KeyBits × Bool) :=
  if key = noKey then .ok (s, false)
  else if maxKey < key then .error (.keyTooLarge (.bitset key maxKey))
  else .ok (s.set key, !s.contains key)

/-- Add keys in order. -/
def insertAll? (s : KeyBits) (keys : List JoinKey) : Except Failure KeyBits :=
  keys.foldlM (fun s key => (s.insert? key).map (·.1)) s

def ofList? (keys : List JoinKey) : Except Failure KeyBits := empty.insertAll? keys

/-! ### Set operations -/

/-- The union, at least as wide as either side. -/
def union (s t : KeyBits) : KeyBits :=
  ⟨(s.ensureCapacity t.capacity).words.mapIdx fun i w => w ||| t.word i⟩

/-- The intersection, as wide as the left side. -/
def inter (s t : KeyBits) : KeyBits := ⟨s.words.mapIdx fun i w => w &&& t.word i⟩

/-- The difference, as wide as the left side. -/
def diff (s t : KeyBits) : KeyBits := ⟨s.words.mapIdx fun i w => w &&& ~~~(t.word i)⟩

/-- The keys within the capacity that are not in the set. Key 0 stays out. -/
def flip (s : KeyBits) : KeyBits :=
  ⟨s.words.mapIdx fun i w => if i = 0 then ~~~w &&& ~~~1 else ~~~w⟩

/-! ### Contents -/

/-- The place of the lowest bit of a word, or 64 if it has none. -/
def lowestBit (w : UInt64) : Nat := w.toBitVec.ctz.toNat

/-- The first `count` keys of word `i`, where each step takes the lowest bit off. -/
def takeKeys (i : Nat) : Nat → UInt64 → List JoinKey
  | 0, _ => []
  | count + 1, w =>
    if w = 0 then [] else (64 * i + lowestBit w) :: takeKeys i count (w &&& (w - 1))

/-- The keys of word `i`. -/
def wordKeys (i : Nat) (w : UInt64) : List JoinKey := takeKeys i 64 w

/-- The keys in ascending order. -/
def toList (s : KeyBits) : List JoinKey :=
  s.words.toList.zipIdx.flatMap fun (w, i) => wordKeys i w

def cardinality (s : KeyBits) : Nat :=
  s.words.toList.foldl
    (fun count w => count + if w = 0 then 0 else (List.range 64).countP (testBit w)) 0

def isEmpty (s : KeyBits) : Bool := s.words.all (· == 0)

/-- The words without trailing zeros. -/
def significant (s : KeyBits) : List UInt64 :=
  (s.words.toList.reverse.dropWhile (· == 0)).reverse

instance : BEq KeyBits := ⟨fun s t => s.significant == t.significant⟩

/-- The first keys, and how many there are beyond those. -/
def describe (s : KeyBits) : String :=
  let keys := s.toList
  let shown := 32
  let text := "\x7b" ++ ", ".intercalate ((keys.take shown).map toString) ++ "\x7d"
  if shown < keys.length then text ++ " (+" ++ toString (keys.length - shown) ++ " more)" else text

end KeyBits

end FederatedSearch
