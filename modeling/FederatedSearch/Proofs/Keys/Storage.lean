import FederatedSearch.Keys.DocTable
import FederatedSearch.Proofs.Keys.KeyTable
import FederatedSearch.Proofs.Keys.Membership
import FederatedSearch.Score.RankTable

/-!
# How far key-indexed storage grows

Whatever is indexed by join keys refuses a key for which the slots up to it would not fit into
`maxTableBytes`. This bounds what a single key needs. It does not bound what is held: a buffer that is
too short grows by a quarter at least, from whatever length the keys before left behind, and a quarter
more than a length within the limit may be beyond it.

So the limit is kept by most sequences of items and not by all. It is passed just when an item that
is admitted finds a buffer that is too short and longer than four fifths of the limit, and from then
on nothing is too short any more. Hence a buffer never reaches five quarters of the limit.

## Implementation notes

Bitsets, rank tables and document tables differ in the width of a slot and in how many slots a key
needs. A `Filling` has these as fields, together with what is to be known of putting an item in, and
everything after that is said of fillings.

## Main definitions

* `takeEach` — items taken one after the other, where a refusal changes nothing
* `Filling` — a structure that grows with the items put in; `Filling.bitset`, `Filling.ranks`,
  `Filling.documents`
* `Filling.Overgrows` — the sequences that pass the limit

## Main results

* `Filling.lt_bytes_iff`, `Filling.bytes_lt` — when the limit is passed, and by how much at most
* `storage_beyond_iff_overgrown` — the three structures
* `storage_beyond_with_two_keys` — two keys that pass the limit, for each of them
-/

namespace FederatedSearch

/-- Take items one after the other. An item that is refused leaves the state as it was. -/
def takeEach {σ ι : Type} (take? : σ → ι → Except Failure σ) (s : σ) (items : List ι) : σ :=
  items.foldl (fun s item => (take? s item).toOption.getD s) s

theorem takeEach_append {σ ι : Type} (take? : σ → ι → Except Failure σ) (s : σ)
    (items more : List ι) : takeEach take? s (items ++ more) = takeEach take?
    (takeEach take? s items) more :=
  List.foldl_append

/-- What is kept by every item that is taken is kept by all of them. -/
theorem takeEach_induction {σ ι : Type} {take? : σ → ι → Except Failure σ} {P : σ → Prop}
    (hstep : ∀ {s item t}, P s → take? s item = .ok t → P t) {s : σ} (h : P s) (items : List ι) :
    P (takeEach take? s items) := by
  induction items generalizing s with
  | nil => exact h
  | cons item items ih =>
    refine ih (s := (take? s item).toOption.getD s) ?_
    cases htake : take? s item with
    | error failure => exact h
    | ok t => exact hstep h htake

/-- A structure that starts empty and grows with the items put in. -/
structure Filling (σ ι : Type) where
  put? : σ → ι → Except Failure σ
  start : σ
  /-- The number of slots that are held. -/
  length : σ → Nat
  /-- The number of slots that an item needs. -/
  slots : ι → Nat
  /-- The bytes of a slot. -/
  width : Nat
  length_start : length start = 0
  width_mul : width * (maxTableBytes / width) = maxTableBytes
  put?_of_le : ∀ s item, slots item ≤ maxTableBytes / width →
    ∃ t, put? s item = .ok t ∧ length t = grownLength (length s) (slots item)
  put?_of_lt : ∀ s item, maxTableBytes / width < slots item → ∃ failure, put? s item = .error failure

namespace Filling

variable {σ ι : Type} (f : Filling σ ι)

/-- The slots that `maxTableBytes` have room for. -/
def limit : Nat := maxTableBytes / f.width

/-- What is there after a sequence of items, some of which may be refused. -/
def after (items : List ι) : σ := takeEach f.put? f.start items

/-- The storage that is held then. -/
def bytes (items : List ι) : Nat := f.width * f.length (f.after items)

/-- Some item that is admitted needs more slots than there are, of which a quarter more are beyond the
limit. -/
def Overgrows (items : List ι) : Prop :=
  ∃ before item rest, items = before ++ item :: rest ∧
    f.length (f.after before) < f.slots item ∧ f.slots item ≤ f.limit ∧
    f.limit < f.length (f.after before) * 5 / 4

theorem width_pos : 0 < f.width := by
  refine Nat.pos_of_ne_zero fun hwidth => ?_
  have hmul := f.width_mul
  rw [hwidth, Nat.zero_mul] at hmul
  exact absurd hmul (by decide)

theorem limit_pos : 0 < f.limit := by
  refine Nat.pos_of_ne_zero fun hlimit => ?_
  have hmul := f.width_mul
  rw [show maxTableBytes / f.width = 0 from hlimit, Nat.mul_zero] at hmul
  exact absurd hmul (by decide)

/-! ### One item -/

/-- What an item does to the length. -/
theorem length_take (s : σ) (item : ι) :
    f.length ((f.put? s item).toOption.getD s) =
      if f.slots item ≤ f.limit then grownLength (f.length s) (f.slots item) else f.length s := by
  split
  · rename_i hfits
    obtain ⟨t, hput, hlength⟩ := f.put?_of_le s item hfits
    rw [hput]
    exact hlength
  · rename_i hlarge
    obtain ⟨failure, hput⟩ := f.put?_of_lt s item (Nat.not_le.mp hlarge)
    rw [hput]
    rfl

theorem after_concat (items : List ι) (item : ι) :
    f.after (items ++ [item]) = (f.put? (f.after items) item).toOption.getD (f.after items) :=
  takeEach_append f.put? f.start items [item]

/-- The limit is passed by one item, or has been passed before. -/
theorem lt_length_concat_iff (items : List ι) (item : ι) :
    f.limit < f.length (f.after (items ++ [item])) ↔
      f.limit < f.length (f.after items) ∨
        f.length (f.after items) < f.slots item ∧ f.slots item ≤ f.limit ∧
          f.limit < f.length (f.after items) * 5 / 4 := by
  rw [after_concat, length_take, grownLength]
  split
  · split <;> omega
  · omega

theorem overgrows_concat_iff (items : List ι) (item : ι) :
    f.Overgrows (items ++ [item]) ↔
      f.Overgrows items ∨
        f.length (f.after items) < f.slots item ∧ f.slots item ≤ f.limit ∧
          f.limit < f.length (f.after items) * 5 / 4 := by
  constructor
  · rintro ⟨before, found, rest, hsplit, hgrows⟩
    rcases List.eq_nil_or_concat rest with rfl | ⟨rest, last, rfl⟩
    · obtain ⟨rfl, hitem⟩ := List.append_inj' hsplit rfl
      obtain rfl : item = found := List.singleton_inj.mp hitem
      exact .inr hgrows
    · have hsplit : items ++ [item] = (before ++ found :: rest) ++ [last] := by simpa using hsplit
      exact .inl ⟨before, found, rest, (List.append_inj' hsplit rfl).1, hgrows⟩
  · rintro (⟨before, found, rest, rfl, hgrows⟩ | hgrows)
    · exact ⟨before, found, rest ++ [item], by simp, hgrows⟩
    · exact ⟨items, item, [], rfl, hgrows⟩

/-! ### All items -/

/-- **The limit is passed** just when the items overgrow it. -/
theorem lt_bytes_iff (items : List ι) : maxTableBytes < f.bytes items ↔ f.Overgrows items := by
  have hlength : f.limit < f.length (f.after items) ↔ f.Overgrows items := by
    induction items using List.reverseRecOn with
    | nil =>
      refine iff_of_false (fun hlt => ?_) (by simp [Overgrows])
      rw [show f.length (f.after []) = 0 from f.length_start] at hlt
      exact Nat.not_lt_zero _ hlt
    | append_singleton items item ih => rw [lt_length_concat_iff, overgrows_concat_iff, ih]
  rw [← hlength, bytes, ← f.width_mul]
  exact Nat.mul_lt_mul_left f.width_pos

/-- **Five quarters of the limit** are never reached. -/
theorem bytes_lt (items : List ι) : 4 * f.bytes items < 5 * maxTableBytes := by
  have hlength : 4 * f.length (f.after items) < 5 * f.limit := by
    induction items using List.reverseRecOn with
    | nil =>
      have hpos := f.limit_pos
      rw [show f.length (f.after []) = 0 from f.length_start]
      omega
    | append_singleton items item ih =>
      have hpos := f.limit_pos
      rw [after_concat, length_take, grownLength]
      split
      · split <;> omega
      · exact ih
  calc 4 * f.bytes items
      = f.width * (4 * f.length (f.after items)) := Nat.mul_left_comm ..
    _ < f.width * (5 * f.limit) := Nat.mul_lt_mul_of_pos_left hlength f.width_pos
    _ = 5 * (f.width * f.limit) := Nat.mul_left_comm ..
    _ = 5 * maxTableBytes := by rw [limit, f.width_mul]

end Filling

/-! ### The three structures -/

/-- The words up to an admissible key fit. -/
theorem words_le_iff (key : Nat) : key / 64 + 1 ≤ maxTableBytes / 8 ↔ key ≤ maxKey := by
  show key / 64 + 1 ≤ 268435456 ↔ key ≤ 17179869183
  omega

/-- So do the slots of a table. -/
theorem slots_le_iff {width : Nat} (hwidth : 0 < maxTableBytes / width) (key : Nat) :
    key + 1 ≤ maxTableBytes / width ↔ ¬ maxKeyFor width < key := by
  show key + 1 ≤ maxTableBytes / width ↔ ¬ maxTableBytes / width - 1 < key
  generalize maxTableBytes / width = limit at hwidth
  omega

theorem KeyBits.size_set (s : KeyBits) (key : Nat) :
    (s.set key).words.size = grownLength s.words.size (key / 64 + 1) := by
  have hneeded : (key + 1 + 63) / 64 = key / 64 + 1 := by omega
  rw [set, Array.size_modify, size_ensureCapacity, hneeded]

theorem KeyTable.size_record {α : Type} (t : KeyTable α) (key : JoinKey) (value : α) :
    (t.record key value).slots.size = grownLength t.slots.size (key + 1) := by
  rw [record, Array.size_modify, size_extend]
  exact Nat.max_eq_right (le_grownLength_left ..)

namespace Filling

/-- Keys in a bitset, in words of eight bytes. Key 0 is not put in and needs no room. -/
def bitset : Filling KeyBits JoinKey where
  put? s key := (s.insert? key).map (·.1)
  start := .empty
  length s := s.words.size
  slots key := if key = noKey then 0 else key / 64 + 1
  width := 8
  length_start := rfl
  width_mul := rfl
  put?_of_le s key hfits := by
    by_cases h0 : key = noKey
    · subst h0
      exact ⟨s, rfl, (if_pos (Nat.zero_le _)).symm⟩
    · rw [if_neg h0, words_le_iff] at hfits
      refine ⟨s.set key, by rw [KeyBits.insert?_eq_ok h0 hfits]; rfl, ?_⟩
      rw [if_neg h0, KeyBits.size_set]
  put?_of_lt s key hlarge := by
    by_cases h0 : key = noKey
    · rw [if_pos h0] at hlarge
      exact absurd hlarge (Nat.not_lt_zero _)
    · rw [if_neg h0, ← Nat.not_le, words_le_iff, Nat.not_le] at hlarge
      exact ⟨_, by rw [KeyBits.insert?_eq_error hlarge]; rfl⟩

/-- Scores by key, in two bytes each. -/
def ranks : Filling RankTable (JoinKey × Binary32) where
  put? t item := RankTable.record? t item.1 item.2
  start := .empty
  length t := t.slots.size
  slots item := item.1 + 1
  width := 2
  length_start := rfl
  width_mul := rfl
  put?_of_le t item hfits :=
    ⟨_, if_neg ((slots_le_iff (by decide) item.1).mp hfits), KeyTable.size_record ..⟩
  put?_of_lt t item hlarge := by
    have hmax : RankTable.maxKey < item.1 :=
      Decidable.not_not.mp fun hmax =>
        Nat.not_le.mpr hlarge ((slots_le_iff (by decide) item.1).mpr hmax)
    exact ⟨_, if_pos hmax⟩

/-- Documents by key, in four bytes each. -/
def documents : Filling DocTable (JoinKey × Nat) where
  put? t item := DocTable.record? t item.1 item.2
  start := .empty
  length t := t.slots.size
  slots item := item.1 + 1
  width := 4
  length_start := rfl
  width_mul := rfl
  put?_of_le t item hfits :=
    ⟨_, if_neg ((slots_le_iff (by decide) item.1).mp hfits), KeyTable.size_record ..⟩
  put?_of_lt t item hlarge := by
    have hmax : DocTable.maxKey < item.1 :=
      Decidable.not_not.mp fun hmax =>
        Nat.not_le.mpr hlarge ((slots_le_iff (by decide) item.1).mpr hmax)
    exact ⟨_, if_pos hmax⟩

end Filling

open Filling in
/-- **Storage goes beyond `maxTableBytes`** just when some key that is admitted finds a buffer which is
too short for it and of which a quarter more is beyond the limit. It stays below five quarters of the
limit. -/
theorem storage_beyond_iff_overgrown (keys : List JoinKey) (scores : List (JoinKey × Binary32))
    (docs : List (JoinKey × Nat)) :
    ((maxTableBytes < bitset.bytes keys ↔ bitset.Overgrows keys) ∧
        4 * bitset.bytes keys < 5 * maxTableBytes) ∧
      ((maxTableBytes < ranks.bytes scores ↔ ranks.Overgrows scores) ∧
        4 * ranks.bytes scores < 5 * maxTableBytes) ∧
      ((maxTableBytes < documents.bytes docs ↔ documents.Overgrows docs) ∧
        4 * documents.bytes docs < 5 * maxTableBytes) :=
  ⟨⟨bitset.lt_bytes_iff keys, bitset.bytes_lt keys⟩, ⟨ranks.lt_bytes_iff scores, ranks.bytes_lt scores⟩,
    ⟨documents.lt_bytes_iff docs, documents.bytes_lt docs⟩⟩

namespace Filling

variable {σ ι : Type} (f : Filling σ ι)

theorem length_after_singleton {item : ι} (hfits : f.slots item ≤ f.limit) :
    f.length (f.after [item]) = f.slots item := by
  have hone : f.after [item] = (f.put? f.start item).toOption.getD f.start := rfl
  rw [hone, length_take, if_pos hfits, f.length_start, grownLength]
  split <;> omega

/-- Two items pass the limit if the first one takes more than four fifths of it and the second one
needs more than that. -/
theorem lt_bytes_pair {first second : ι} (hfits : f.slots second ≤ f.limit)
    (hmore : f.slots first < f.slots second) (hfull : f.limit < f.slots first * 5 / 4) :
    maxTableBytes < f.bytes [first, second] := by
  refine (f.lt_bytes_iff _).mpr ⟨[first], second, [], rfl, ?_⟩
  rw [length_after_singleton f (Nat.le_trans (Nat.le_of_lt hmore) hfits)]
  exact ⟨hmore, hfits, hfull⟩

end Filling

/-- **Two keys are enough** to go beyond the limit, although each of them alone keeps it. -/
theorem storage_beyond_with_two_keys :
    maxTableBytes < Filling.bitset.bytes [13743895423, 13743895424] ∧
      maxTableBytes < Filling.ranks.bytes [(858993459, .one), (858993460, .one)] ∧
      maxTableBytes < Filling.documents.bytes [(429496730, 0), (429496731, 1)] := by
  refine ⟨Filling.lt_bytes_pair _ ?_ ?_ ?_, Filling.lt_bytes_pair _ ?_ ?_ ?_,
    Filling.lt_bytes_pair _ ?_ ?_ ?_⟩ <;> decide

end FederatedSearch
