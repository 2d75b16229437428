import FederatedSearch.Proofs.Act.Outcome
import FederatedSearch.Proofs.Keys.Made
import FederatedSearch.Proofs.Keys.Storage
import FederatedSearch.Proofs.Keys.Words
import Mathlib.Data.List.DropRight

/-!
# What bitsets show of their keys

The keys of a bitset can be listed, counted and compared, and all of that agrees with
`KeyBits.contains`, whatever the capacity. Words beyond the last key are zero and show nowhere: a list
has no keys of them, and a comparison drops them on both sides first. So two sets are equal just when
they hold the same keys, and then the words that are left are the same.

Sets come about in a bank, where each has a place and is made from nothing, from keys or by what is done
to it, if need be with another set of the bank. What is refused leaves the bank as it was.

## Main definitions

* `KeyBits.ShowsKeys` — listing, counting and testing for emptiness agree with membership
* `KeyBits.Bank`, `KeyBits.Event`, `KeyBits.Bank.step?`, `KeyBits.Bank.run` — histories of sets

## Main results

* `KeyBits.showsKeys` — for all sets
* `KeyBits.beq_iff_alike` — equality is having the same keys
* `KeyBits.Bank.step?_eq_ok` — all that one event can do
* `KeyBits.Bank.represents` — the sets after any history
-/

namespace FederatedSearch

namespace KeyBits

/-! ### Listing, counting, testing for emptiness -/

/-- What a set shows is what it contains. -/
structure ShowsKeys (s : KeyBits) : Prop where
  /-- Keys are listed in ascending order, so none of them twice. -/
  ascending : s.toList.Pairwise (· < ·)
  mem_iff : ∀ key, key ∈ s.toList ↔ s.contains key = true
  count : s.cardinality = s.toList.length
  empty_iff : s.isEmpty = true ↔ ∀ key, s.contains key = false

theorem pairwise_toList (s : KeyBits) : s.toList.Pairwise (· < ·) := by
  have hplaces : s.words.toList.zipIdx.Pairwise fun p q => p.2 < q.2 := by
    refine List.pairwise_map.mp ?_
    rw [List.zipIdx_map_snd]
    exact List.pairwise_lt_range' 1
  refine List.pairwise_flatMap.mpr ⟨fun p _ => pairwise_wordKeys p.2 p.1, hplaces.imp ?_⟩
  -- the keys of a word are below those of every word after it
  intro p q hlt key hkey other hother
  obtain ⟨hp, -⟩ := mem_wordKeys.mp hkey
  obtain ⟨hq, -⟩ := mem_wordKeys.mp hother
  refine Nat.lt_of_div_lt_div (c := 64) ?_
  rw [hp, hq]
  exact hlt

theorem mem_toList {s : KeyBits} {key : Nat} : key ∈ s.toList ↔ s.contains key = true := by
  rw [toList, List.mem_flatMap, contains]
  constructor
  · rintro ⟨⟨w, i⟩, hmem, hkey⟩
    obtain ⟨rfl, hbit⟩ := mem_wordKeys.mp hkey
    have hword : s.words.toList[key / 64]? = some w := List.mem_zipIdx_iff_getElem?.mp hmem
    rw [word, Array.getD_eq_getD_getElem?, ← Array.getElem?_toList, hword]
    exact hbit
  · intro hbit
    have hlt : key / 64 < s.words.size := by
      by_contra hge
      rw [word_eq_zero (Nat.not_lt.mp hge), testBit_zero] at hbit
      exact Bool.false_ne_true hbit
    rw [word_of_lt hlt] at hbit
    refine ⟨(s.words[key / 64], key / 64), List.mem_zipIdx_iff_getElem?.mpr ?_,
      mem_wordKeys.mpr ⟨rfl, hbit⟩⟩
    rw [Array.getElem?_toList, Array.getElem?_eq_getElem hlt]

theorem cardinality_eq (s : KeyBits) : s.cardinality = s.toList.length := by
  have hcount : ∀ (words : List UInt64) (start place : Nat),
      words.foldl (fun count w => count + if w = 0 then 0 else (List.range 64).countP (testBit w)) start =
        start + ((words.zipIdx place).flatMap fun p => wordKeys p.2 p.1).length := by
    intro words
    induction words with
    | nil => exact fun _ _ => rfl
    | cons w words ih =>
      intro start place
      rw [List.foldl_cons, ih _ (place + 1), List.zipIdx_cons, List.flatMap_cons, List.length_append,
        length_wordKeys, Nat.add_assoc]
  exact (hcount s.words.toList 0 0).trans (Nat.zero_add _)

theorem isEmpty_iff {s : KeyBits} : s.isEmpty = true ↔ ∀ key, s.contains key = false := by
  rw [isEmpty, Array.all_eq_true]
  constructor
  · intro hzero key
    rcases Nat.lt_or_ge (key / 64) s.words.size with hlt | hge
    · rw [contains, word_of_lt hlt, eq_of_beq (hzero (key / 64) hlt), testBit_zero]
    · rw [contains, word_eq_zero hge, testBit_zero]
  · intro hnone i hi
    have hword : s.word i = 0 := eq_of_testBit fun b hb => by
      rw [testBit_word s i hb, hnone, testBit_zero]
    rw [← word_of_lt hi, hword]
    rfl

theorem showsKeys (s : KeyBits) : s.ShowsKeys where
  ascending := s.pairwise_toList
  mem_iff _ := mem_toList
  count := s.cardinality_eq
  empty_iff := isEmpty_iff

/-! ### Equality -/

theorem getLast?_significant (s : KeyBits) : s.significant.getLast? ≠ some 0 := by
  intro hlast
  have hne : s.significant ≠ [] := fun hnil => by simp [hnil] at hlast
  rw [List.getLast?_eq_some_getLast hne] at hlast
  exact List.rdropWhile_last_not _ _ hne (beq_iff_eq.mpr (Option.some.inj hlast))

/-- With no zero at its end, a list of words is no longer than one that reads the same. -/
theorem length_le_of_getD {words others : List UInt64} (hlast : words.getLast? ≠ some 0)
    (h : ∀ i, words.getD i 0 = others.getD i 0) : words.length ≤ others.length := by
  by_contra hlt
  have hend : words.length - 1 < words.length := by omega
  have hword := h (words.length - 1)
  rw [List.getD_eq_getElem?_getD, List.getD_eq_getElem?_getD, List.getElem?_eq_getElem hend,
    List.getElem?_eq_none (by omega)] at hword
  refine hlast ?_
  rw [List.getLast?_eq_getElem?, List.getElem?_eq_getElem hend]
  exact congrArg some hword

/-- **Sets are equal** just when they hold the same keys. -/
theorem beq_iff_alike {s t : KeyBits} : (s == t) = true ↔ s.Alike t := by
  refine ⟨fun heq key => contains_eq_of_beq heq key, fun halike => beq_iff.mpr ?_⟩
  have hwords : ∀ i, s.significant.getD i 0 = t.significant.getD i 0 := by
    intro i
    rw [← word_eq_getD_significant, ← word_eq_getD_significant]
    exact eq_of_testBit fun b hb => by rw [testBit_word s i hb, testBit_word t i hb, halike]
  have hlength : s.significant.length = t.significant.length :=
    Nat.le_antisymm (length_le_of_getD s.getLast?_significant hwords)
      (length_le_of_getD t.getLast?_significant fun i => (hwords i).symm)
  refine List.ext_getElem hlength fun i hs ht => ?_
  have hword := hwords i
  rwa [List.getD_eq_getElem?_getD, List.getD_eq_getElem?_getD, List.getElem?_eq_getElem hs,
    List.getElem?_eq_getElem ht] at hword

/-! ### Capacity -/

theorem capacity_le_set (s : KeyBits) (key : Nat) : s.capacity ≤ (s.set key).capacity := by
  have hgrown := le_grownLength_left s.words.size (key / 64 + 1)
  simp only [capacity, size_set]
  omega

theorem capacity_le_insert? {s t : KeyBits} {key : JoinKey} {isNew : Bool}
    (h : s.insert? key = .ok (t, isNew)) : s.capacity ≤ t.capacity := by
  rw [insert?] at h
  split at h
  · obtain ⟨rfl, -⟩ := Prod.mk.inj (Except.ok.inj h)
    exact Nat.le_refl _
  · split at h
    · cases h
    · obtain ⟨rfl, -⟩ := Prod.mk.inj (Except.ok.inj h)
      exact s.capacity_le_set key

theorem capacity_le_union (s t : KeyBits) : s.capacity ≤ (s.union t).capacity := by
  have hgrown := capacity_le_ensureCapacity s t.capacity
  simpa [capacity, union] using hgrown

theorem capacity_inter (s t : KeyBits) : (s.inter t).capacity = s.capacity := by
  simp [capacity, inter]

theorem capacity_diff (s t : KeyBits) : (s.diff t).capacity = s.capacity := by
  simp [capacity, diff]

theorem capacity_flip (s : KeyBits) : s.flip.capacity = s.capacity := by
  simp [capacity, flip]

/-! ### Histories -/

/-- Sets by their places. -/
structure Bank where
  sets : List KeyBits := []

/-- What may happen to a bank: a set is made and gets the next place, or the set of a place is changed. -/
inductive Event where
  | new
  | withCapacity (bits : Nat)
  | ofList (keys : List JoinKey)
  | insert (place : Nat) (key : JoinKey)
  | ensureCapacity (place bits : Nat)
  | union (place other : Nat)
  | inter (place other : Nat)
  | diff (place other : Nat)
  | flip (place : Nat)

namespace Bank

/-- The set of a place, which is empty if nothing has the place yet. -/
def get (bank : Bank) (place : Nat) : KeyBits := bank.sets.getD place .empty

/-- Give a set the next place. -/
def add (bank : Bank) (s : KeyBits) : Bank := ⟨bank.sets ++ [s]⟩

/-- Replace the set of a place, if something has the place. -/
def put (bank : Bank) (place : Nat) (s : KeyBits) : Bank := ⟨bank.sets.set place s⟩

/-- The bank after an event, which is refused if a key is. -/
def step? (bank : Bank) : Event → Except Failure Bank
  | .new => .ok (bank.add .empty)
  | .withCapacity bits => .ok (bank.add (.withCapacity bits))
  | .ofList keys => (KeyBits.ofList? keys).map bank.add
  | .insert place key => ((bank.get place).insert? key).map fun r => bank.put place r.1
  | .ensureCapacity place bits => .ok (bank.put place ((bank.get place).ensureCapacity bits))
  | .union place other => .ok (bank.put place ((bank.get place).union (bank.get other)))
  | .inter place other => .ok (bank.put place ((bank.get place).inter (bank.get other)))
  | .diff place other => .ok (bank.put place ((bank.get place).diff (bank.get other)))
  | .flip place => .ok (bank.put place (bank.get place).flip)

/-- From an empty bank, where a refused event changes nothing. -/
def run (history : List Event) : Bank := takeEach step? {} history

variable {bank after : Bank} {event : Event}

theorem get_eq_empty {place : Nat} (h : bank.sets.length ≤ place) : bank.get place = .empty := by
  rw [get, List.getD_eq_getElem?_getD, List.getElem?_eq_none h]
  rfl

theorem get_add (bank : Bank) (s : KeyBits) (place : Nat) :
    (bank.add s).get place = if place = bank.sets.length then s else bank.get place := by
  simp only [get, add, List.getD_eq_getElem?_getD]
  rcases Nat.lt_trichotomy place bank.sets.length with hlt | rfl | hgt
  · rw [List.getElem?_append_left hlt, if_neg (Nat.ne_of_lt hlt)]
  · simp
  · rw [if_neg (Nat.ne_of_gt hgt), List.getElem?_eq_none (Nat.le_of_lt hgt), List.getElem?_eq_none]
    simpa using Nat.succ_le_of_lt hgt

theorem get_put (bank : Bank) (place : Nat) (s : KeyBits) (other : Nat) :
    (bank.put place s).get other =
      if place = other ∧ other < bank.sets.length then s else bank.get other := by
  simp only [get, put, List.getD_eq_getElem?_getD, List.getElem?_set]
  by_cases hplace : place = other
  · subst hplace
    by_cases hlt : place < bank.sets.length
    · simp [hlt]
    · simp [hlt]
  · simp [hplace]

/-- **All that one event can do.** -/
theorem step?_eq_ok (h : bank.step? event = .ok after) :
    (∃ s, after = bank.add s ∧ s.Made) ∨
      ∃ place s, after = bank.put place s ∧ (bank.get place).capacity ≤ s.capacity ∧
        ((∀ other, (bank.get other).Made) → s.Made) := by
  cases event with
  | new => exact .inl ⟨_, (Except.ok.inj h).symm, .empty⟩
  | withCapacity bits => exact .inl ⟨_, (Except.ok.inj h).symm, .withCapacity bits⟩
  | ofList keys =>
    obtain ⟨s, hs, rfl⟩ := map_eq_ok.mp h
    exact .inl ⟨s, rfl, Made.empty.insertAll? hs⟩
  | insert place key =>
    obtain ⟨⟨s, isNew⟩, hs, rfl⟩ := map_eq_ok.mp h
    exact .inr ⟨place, s, rfl, capacity_le_insert? hs, fun hmade => (hmade place).insert hs⟩
  | ensureCapacity place bits =>
    exact .inr ⟨place, _, (Except.ok.inj h).symm, capacity_le_ensureCapacity _ bits,
      fun hmade => (hmade place).ensureCapacity bits⟩
  | union place other =>
    exact .inr ⟨place, _, (Except.ok.inj h).symm, capacity_le_union _ _,
      fun hmade => (hmade place).union (hmade other)⟩
  | inter place other =>
    exact .inr ⟨place, _, (Except.ok.inj h).symm, (capacity_inter _ _).ge,
      fun hmade => (hmade place).inter (hmade other)⟩
  | diff place other =>
    exact .inr ⟨place, _, (Except.ok.inj h).symm, (capacity_diff _ _).ge,
      fun hmade => (hmade place).diff (hmade other)⟩
  | flip place =>
    exact .inr ⟨place, _, (Except.ok.inj h).symm, (capacity_flip _).ge,
      fun hmade => (hmade place).flip⟩

theorem made_step? (hmade : ∀ place, (bank.get place).Made) (h : bank.step? event = .ok after)
    (place : Nat) : (after.get place).Made := by
  obtain ⟨s, rfl, hs⟩ | ⟨changed, s, rfl, -, hs⟩ := step?_eq_ok h
  · rw [get_add]
    split
    · exact hs
    · exact hmade place
  · rw [get_put]
    split
    · exact hs hmade
    · exact hmade place

theorem capacity_le_step? (h : bank.step? event = .ok after) (place : Nat) :
    (bank.get place).capacity ≤ (after.get place).capacity := by
  obtain ⟨s, rfl, -⟩ | ⟨changed, s, rfl, hwider, -⟩ := step?_eq_ok h
  · rw [get_add]
    split
    · rename_i hplace
      rw [get_eq_empty (Nat.le_of_eq hplace.symm)]
      exact Nat.zero_le _
    · exact Nat.le_refl _
  · rw [get_put]
    split
    · rename_i hplace
      exact hplace.1 ▸ hwider
    · exact Nat.le_refl _

theorem made_run (history : List Event) (place : Nat) : ((run history).get place).Made := by
  have hstart : ∀ place, (({} : Bank).get place).Made := fun place => by
    rw [get_eq_empty (Nat.zero_le place)]
    exact .empty
  have hall : ∀ place, ((run history).get place).Made :=
    takeEach_induction (P := fun bank => ∀ place, (get bank place).Made) made_step? hstart history
  exact hall place

theorem capacity_le_run (history later : List Event) (place : Nat) :
    ((run history).get place).capacity ≤ ((run (history ++ later)).get place).capacity := by
  rw [run, run, takeEach_append]
  exact takeEach_induction
    (P := fun bank => ((run history).get place).capacity ≤ (get bank place).capacity)
    (fun hle hstep => Nat.le_trans hle (capacity_le_step? hstep place)) (Nat.le_refl _) later

/-- A key that is too large is refused, and the bank stays as it was. -/
theorem run_insert_of_lt (history : List Event) (place : Nat) {key : Nat} (hmax : maxKey < key) :
    run (history ++ [.insert place key]) = run history := by
  have hrefused : (run history).step? (.insert place key) =
      .error (.keyTooLarge (.bitset key maxKey)) := by
    rw [step?, insert?_eq_error hmax]
    rfl
  rw [run, takeEach_append]
  show ((run history).step? (.insert place key)).toOption.getD (run history) = run history
  rw [hrefused]
  rfl

/-- **Sets after any history.** Key 0 is in none of them and capacities never decrease. Each set lists
its keys in ascending order and counts them, and it is empty if there are none. Two sets are equal just
when they hold the same keys, and then they have the same words up to the last that is not zero. A key
that is too large is refused and changes no set. -/
theorem represents (history : List Event) (place other : Nat) :
    ((run history).get place).contains noKey = false ∧
      (∀ later, ((run history).get place).capacity ≤ ((run (history ++ later)).get place).capacity) ∧
      ((run history).get place).ShowsKeys ∧
      (((run history).get place == (run history).get other) = true ↔
        ∀ key, ((run history).get place).contains key = ((run history).get other).contains key) ∧
      (((run history).get place == (run history).get other) = true →
        ((run history).get place).significant = ((run history).get other).significant) ∧
      ∀ key, maxKey < key →
        ((run history).get place).insert? key = .error (.keyTooLarge (.bitset key maxKey)) ∧
          run (history ++ [.insert place key]) = run history :=
  ⟨(made_run history place).proper, fun later => capacity_le_run history later place, showsKeys _,
    beq_iff_alike, beq_iff.mp, fun _ hmax => ⟨insert?_eq_error hmax, run_insert_of_lt history place hmax⟩⟩

end Bank

end KeyBits

end FederatedSearch
