import FederatedSearch.Collector.Related
import FederatedSearch.Proofs.Keys.KeyTable

/-!
# Rank tables

A rank table has an empty slot for a key without a score. What is kept is two bytes per key, with code 0 in
such a slot. The two come to the same because no score has code 0, however bad the score is: a slot with a
code is never taken for an empty one, neither by a later record nor when tables are merged.

So a table is a map in which the first score of a key stays, and the tables of several groups, merged in
order, make the map of all that was recorded, group by group.

## Main definitions

* `CodeWords` — the slots as they are kept; `record`, `fill`
* `RankTable.Coded`, `RankTable.words` — the tables that can be kept so, and their slots
* `RankTable.Holds` — a table, what was recorded in it, and its slots

## Main results

* `ScoreCode.word_ofScore_ne_zero` — no score has code 0
* `RankTable.words_record`, `RankTable.words_fill` — tables and slots change alike
* `RankTable.Holds.recordEach`, `RankTable.exists_tables` — recording a sequence, and group by group
* `RankTable.merge_recorded` — the tables of all groups
-/

namespace FederatedSearch

namespace ScoreCode

/-- **No score has code 0**, whether it is 0 itself, negative or not a number. -/
theorem word_ofScore_ne_zero (x : Binary32) : (ofScore x).word ≠ 0 := by
  have hne : ∀ steps ≤ maxSteps, UInt16.ofNat (steps + 1) ≠ 0 := by
    intro steps hsteps heq
    have htoNat := congrArg UInt16.toNat heq
    rw [UInt16.toNat_ofNat_of_lt' (Nat.lt_of_le_of_lt (Nat.succ_le_succ hsteps) (by decide))] at htoNat
    exact Nat.succ_ne_zero steps htoNat
  rw [ofScore]
  refine hne _ ?_
  split
  · exact Nat.zero_le _
  · split
    · exact Nat.min_le_right _ _
    · exact Nat.le_refl _

end ScoreCode

/-! ### Codes as they are kept -/

/-- Codes by key, in two bytes each. Code 0 stands for no score. -/
structure CodeWords where
  slots : Array UInt16 := #[]
deriving DecidableEq, Repr

namespace CodeWords

/-- Lengthen the slots to at least `length`. -/
def extend (w : CodeWords) (length : Nat) : CodeWords :=
  ⟨w.slots ++ Array.replicate (length - w.slots.size) 0⟩

/-- Record a score for a key whose slot is empty. -/
def record (w : CodeWords) (key : JoinKey) (score : Binary32) : CodeWords :=
  ⟨(w.extend (grownLength w.slots.size (key + 1))).slots.modify key fun word =>
    if word = 0 then (ScoreCode.ofScore score).word else word⟩

/-- Fill empty slots from other ones. -/
def fill (w other : CodeWords) : CodeWords :=
  ⟨(w.extend other.slots.size).slots.mapIdx fun i word =>
    if word = 0 then other.slots.getD i 0 else word⟩

def recordAll (items : List (JoinKey × Binary32)) : CodeWords :=
  items.foldl (fun w item => w.record item.1 item.2) {}

def mergeAll (tables : List CodeWords) : CodeWords := tables.foldl fill {}

def score (w : CodeWords) (key : JoinKey) : Binary32 := ScoreCode.toScore ⟨w.slots.getD key 0⟩

def contains (w : CodeWords) (key : JoinKey) : Bool := w.slots.getD key 0 != 0

end CodeWords

namespace RankTable

variable {t other : RankTable}

/-- What is kept of a slot. -/
def slotWord : Option ScoreCode → UInt16
  | some code => code.word
  | none => 0

/-- The slots of a table as they are kept. -/
def words (t : RankTable) : CodeWords := ⟨t.slots.map slotWord⟩

/-- A table whose codes are those of scores. -/
def Coded (t : RankTable) : Prop := ∀ key code, t.get? key = some code → code.word ≠ 0

theorem coded_empty : Coded .empty := by
  intro key code hcode
  rw [KeyTable.get?_empty] at hcode
  exact nomatch hcode

theorem Coded.record (h : Coded t) (key : JoinKey) (score : Binary32) :
    Coded (KeyTable.record t key (.ofScore score)) := by
  intro other code hcode
  rw [KeyTable.get?_record] at hcode
  split at hcode
  · rcases Option.or_eq_some_iff.mp hcode with hcode | ⟨-, hcode⟩
    · exact h key code hcode
    · exact Option.some.inj hcode ▸ ScoreCode.word_ofScore_ne_zero score
  · exact h other code hcode

theorem Coded.fill (h : Coded t) (hother : Coded other) : Coded (KeyTable.fill t other) := by
  intro key code hcode
  rw [KeyTable.get?_fill] at hcode
  rcases Option.or_eq_some_iff.mp hcode with hcode | ⟨-, hcode⟩
  · exact h key code hcode
  · exact hother key code hcode

/-! ### Reading -/

theorem getElem?_words (t : RankTable) (i : Nat) : t.words.slots[i]? = t.slots[i]?.map slotWord := by
  rw [words, Array.getElem?_map]

theorem getD_words (t : RankTable) (key : JoinKey) :
    t.words.slots.getD key 0 = slotWord (t.get? key) := by
  rw [Array.getD_eq_getD_getElem?, getElem?_words, KeyTable.get?_eq_getElem?]
  cases t.slots[key]? <;> rfl

theorem score_words (t : RankTable) (key : JoinKey) : t.words.score key = t.score key := by
  rw [CodeWords.score, getD_words, score]
  cases t.get? key <;> rfl

theorem contains_words (h : Coded t) (key : JoinKey) : t.words.contains key = t.contains key := by
  rw [CodeWords.contains, getD_words, contains]
  cases hcode : t.get? key with
  | none => rfl
  | some code => exact bne_iff_ne.mpr (h key code hcode)

/-! ### Recording and merging -/

theorem words_empty : words .empty = {} := congrArg CodeWords.mk Array.map_empty

theorem words_extend (t : RankTable) (length : Nat) :
    words (t.extend length) = t.words.extend length := by
  rw [words, KeyTable.extend, Array.map_append, Array.map_replicate, CodeWords.extend, words,
    Array.size_map]
  rfl

/-- What is kept of a slot that is filled unless it has a code. -/
theorem slotWord_or {slot : Option ScoreCode} (h : ∀ code, slot = some code → code.word ≠ 0)
    (more : Option ScoreCode) :
    slotWord (slot.or more) = if slotWord slot = 0 then slotWord more else slotWord slot := by
  cases slot with
  | none => exact (if_pos rfl).symm
  | some code => exact (if_neg (h code rfl)).symm

/-- The codes in the slots of a table, however far it is extended. -/
theorem Coded.word_ne_zero (h : Coded t) {length i : Nat} {slot : Option ScoreCode}
    (hslot : (KeyTable.extend t length).slots[i]? = some slot) (code : ScoreCode)
    (hcode : slot = some code) : code.word ≠ 0 := by
  refine h i code ?_
  rw [← KeyTable.get?_extend t length, KeyTable.get?_eq_getElem?, hslot, hcode]
  rfl

theorem words_record (h : Coded t) (key : JoinKey) (score : Binary32) :
    words (KeyTable.record t key (.ofScore score)) = t.words.record key score := by
  have hsize : t.words.slots.size = t.slots.size := Array.size_map
  rw [CodeWords.record, hsize, ← words_extend]
  refine congrArg CodeWords.mk (Array.ext_getElem? fun i => ?_)
  rw [KeyTable.record, Array.getElem?_map, Array.getElem?_modify, Array.getElem?_modify, getElem?_words]
  cases hslot : (KeyTable.extend t (grownLength t.slots.size (key + 1))).slots[i]? with
  | none => split <;> rfl
  | some slot =>
    by_cases hkey : key = i
    · rw [if_pos hkey, if_pos hkey]
      exact congrArg some (slotWord_or (h.word_ne_zero hslot) _)
    · rw [if_neg hkey, if_neg hkey]

theorem words_fill (h : Coded t) : words (KeyTable.fill t other) = t.words.fill other.words := by
  have hsize : other.words.slots.size = other.slots.size := Array.size_map
  rw [CodeWords.fill, hsize, ← words_extend]
  refine congrArg CodeWords.mk (Array.ext_getElem? fun i => ?_)
  rw [KeyTable.fill, Array.getElem?_map, Array.getElem?_mapIdx, Array.getElem?_mapIdx, getElem?_words]
  cases hslot : (KeyTable.extend t other.slots.size).slots[i]? with
  | none => rfl
  | some slot =>
    refine congrArg some ?_
    rw [getD_words]
    exact slotWord_or (h.word_ne_zero hslot) _

/-! ### A sequence, and several of them -/

/-- Record scores in order, in a table of their own. -/
def recordAll? (items : List (JoinKey × Binary32)) : Except Failure RankTable :=
  items.foldlM (fun t item => record? t item.1 item.2) .empty

/-- What is recorded for scores. -/
def codes (items : List (JoinKey × Binary32)) : List (JoinKey × ScoreCode) :=
  items.map fun item => (item.1, .ofScore item.2)

/-- A table that holds what was recorded, and how it is kept. -/
structure Holds (t : RankTable) (items : List (JoinKey × Binary32)) (w : CodeWords) : Prop where
  records : KeyTable.Records t (codes items)
  coded : t.Coded
  words_eq : t.words = w

variable {items more : List (JoinKey × Binary32)} {w w' : CodeWords}

theorem holds_empty : Holds .empty [] {} := ⟨KeyTable.records_empty, coded_empty, words_empty⟩

theorem Holds.record (h : Holds t items w) (key : JoinKey) (score : Binary32) :
    Holds (KeyTable.record t key (.ofScore score)) (items ++ [(key, score)]) (w.record key score) where
  records := by
    rw [codes, List.map_append]
    exact h.records.record key (.ofScore score)
  coded := h.coded.record key score
  words_eq := by rw [words_record h.coded, h.words_eq]

theorem Holds.fill (h : Holds t items w) (hother : Holds other more w') :
    Holds (KeyTable.fill t other) (items ++ more) (w.fill w') where
  records := by
    rw [codes, List.map_append]
    exact h.records.fill hother.records
  coded := h.coded.fill hother.coded
  words_eq := by rw [words_fill h.coded, h.words_eq, hother.words_eq]

/-- **Recording a sequence** of scores whose keys are admitted. -/
theorem Holds.recordEach (h : Holds t items w) (hmore : ∀ item ∈ more, item.1 ≤ maxKey) :
    ∃ t', more.foldlM (fun t item => record? t item.1 item.2) t = .ok t' ∧
      Holds t' (items ++ more) (more.foldl (fun w item => w.record item.1 item.2) w) := by
  induction more generalizing t items w with
  | nil => exact ⟨t, rfl, by rwa [List.append_nil]⟩
  | cons item more ih =>
    obtain ⟨hfirst, hrest⟩ := List.forall_mem_cons.mp hmore
    have hrecord : record? t item.1 item.2 = .ok (KeyTable.record t item.1 (.ofScore item.2)) :=
      if_neg (Nat.not_lt.mpr hfirst)
    obtain ⟨t', hfold, hholds⟩ := ih (h.record item.1 item.2) hrest
    refine ⟨t', ?_, ?_⟩
    · rw [List.foldlM_cons, hrecord]
      exact hfold
    · rwa [List.append_cons]

/-- **Sequences** make tables, and these make a table of all of them. -/
theorem exists_tables (groups : List (List (JoinKey × Binary32)))
    (hkeys : ∀ group ∈ groups, ∀ item ∈ group, item.1 ≤ maxKey) :
    ∃ tables, groups.mapM recordAll? = .ok tables ∧ ∀ {t : RankTable} {items w}, Holds t items w →
      Holds (tables.foldl KeyTable.fill t) (items ++ groups.flatten)
        ((groups.map CodeWords.recordAll).foldl CodeWords.fill w) := by
  induction groups with
  | nil => exact ⟨[], rfl, fun h => by rwa [List.flatten_nil, List.append_nil]⟩
  | cons group groups ih =>
    obtain ⟨hfirst, hrest⟩ := List.forall_mem_cons.mp hkeys
    obtain ⟨table, htable, hgroup⟩ := holds_empty.recordEach hfirst
    obtain ⟨tables, htables, hall⟩ := ih hrest
    refine ⟨table :: tables, ?_, fun h => ?_⟩
    · rw [List.mapM_cons, recordAll?, htable]
      exact congrArg (fun r => r >>= fun rest => pure (table :: rest)) htables
    · rw [List.flatten_cons, ← List.append_assoc]
      exact hall (h.fill hgroup)

theorem Holds.get?_eq (h : Holds t items w) (key : JoinKey) :
    t.get? key = (items.lookup key).map ScoreCode.ofScore := by
  rw [h.records key, codes, KeyTable.lookup_map_value]

/-- A key has the first score that was recorded for it. -/
theorem Holds.score_of_first (h : Holds t items w) {key : JoinKey} {score : Binary32}
    {before after : List (JoinKey × Binary32)} (hitems : items = before ++ (key, score) :: after)
    (hfirst : ∀ item ∈ before, item.1 ≠ key) :
    t.contains key = true ∧ t.score key = (ScoreCode.ofScore score).toScore := by
  have hlookup : items.lookup key = some score :=
    List.lookup_eq_some_iff.mpr
      ⟨before, after, hitems, fun item hitem => bne_iff_ne.mpr (hfirst item hitem).symm⟩
  rw [contains, RankTable.score, h.get?_eq, hlookup]
  exact ⟨rfl, rfl⟩

/-- A key for which none was recorded has none. -/
theorem Holds.score_of_unrecorded (h : Holds t items w) {key : JoinKey}
    (hkey : ∀ item ∈ items, item.1 ≠ key) : t.contains key = false ∧ t.score key = .zero := by
  have hlookup : items.lookup key = none :=
    List.lookup_eq_none_iff.mpr fun item hitem => bne_iff_ne.mpr (hkey item hitem).symm
  rw [contains, RankTable.score, h.get?_eq, hlookup]
  exact ⟨rfl, rfl⟩

theorem Holds.contains_iff (h : Holds t items w) (key : JoinKey) :
    t.contains key = true ↔ ∃ item ∈ items, item.1 = key := by
  rw [contains, h.get?_eq, Option.isSome_map, List.lookup_isSome_iff]
  exact exists_congr fun item => and_congr_right fun _ => beq_iff_eq.trans eq_comm

/-- **The tables of all groups.** Let scores be recorded in any number of groups, each in a table of its
own, for keys that are not `noKey` and that are admitted, in whatever order. No record is refused, and the
tables can be merged. The merged table has a score for a key just if one was recorded for it in some
group, even if it is 0, negative or not a number. Its score is that of the code of the first score
recorded for the key, group by group, and 0 for every other key, among them `noKey`. With two bytes per
key, the merged slots are those of the groups filled up from one another, and they say the same of every
key. -/
theorem merge_recorded (field : String) (groups : List (List (JoinKey × Binary32)))
    (hkeys : ∀ group ∈ groups, ∀ item ∈ group, 1 ≤ item.1 ∧ item.1 ≤ maxKey) :
    ∃ tables merged, groups.mapM recordAll? = .ok tables ∧
      (rankScores field).merge () tables = .ok merged ∧
      (∀ key, merged.contains key = true ↔ ∃ group ∈ groups, ∃ item ∈ group, item.1 = key) ∧
      (∀ before key score after, groups.flatten = before ++ (key, score) :: after →
        (∀ item ∈ before, item.1 ≠ key) → merged.score key = (ScoreCode.ofScore score).toScore) ∧
      (∀ key, (∀ group ∈ groups, ∀ item ∈ group, item.1 ≠ key) → merged.score key = .zero) ∧
      (merged.contains noKey = false ∧ merged.score noKey = .zero) ∧
      merged.words = .mergeAll (groups.map CodeWords.recordAll) ∧
      ∀ key, merged.words.contains key = merged.contains key ∧
        merged.words.score key = merged.score key := by
  obtain ⟨tables, htables, hall⟩ := exists_tables groups fun group hgroup item hitem =>
    (hkeys group hgroup item hitem).2
  have hholds : Holds (KeyTable.mergeAll tables) groups.flatten
      (.mergeAll (groups.map CodeWords.recordAll)) := hall holds_empty
  have hflatten : ∀ item, item ∈ groups.flatten ↔ ∃ group ∈ groups, item ∈ group := fun _ =>
    List.mem_flatten
  refine ⟨tables, _, htables, rfl, fun key => ?_, fun before key score after hitems hfirst => ?_,
    fun key hkey => ?_, ?_, hholds.words_eq, fun key => ?_⟩
  · rw [hholds.contains_iff]
    simp only [hflatten]
    constructor
    · rintro ⟨item, ⟨group, hgroup, hitem⟩, hkey⟩
      exact ⟨group, hgroup, item, hitem, hkey⟩
    · rintro ⟨group, hgroup, item, hitem, hkey⟩
      exact ⟨item, ⟨group, hgroup, hitem⟩, hkey⟩
  · exact (hholds.score_of_first hitems hfirst).2
  · refine (hholds.score_of_unrecorded fun item hitem => ?_).2
    obtain ⟨group, hgroup, hitem⟩ := (hflatten item).mp hitem
    exact hkey group hgroup item hitem
  · refine hholds.score_of_unrecorded fun item hitem => ?_
    obtain ⟨group, hgroup, hitem⟩ := (hflatten item).mp hitem
    exact Nat.ne_of_gt (hkeys group hgroup item hitem).1
  · exact ⟨contains_words hholds.coded key, score_words _ key⟩

/-- Three groups, which come to keys 2 and 3 and, with a score that is not a number, to key 40. -/
def threeRankings : List (List (JoinKey × Binary32)) :=
  [[(3, ⟨0xbf800000⟩), (3, .one)], [], [(3, .one), (40, ⟨0x7fc00000⟩), (2, .one)]]

/-- A score of −1 counts as 0 and stays, a score that is not a number is recorded too, and slots that the
first table does not have are not lost. -/
theorem merge_recorded_threeRankings :
    ∃ tables merged, threeRankings.mapM recordAll? = .ok tables ∧
      (rankScores "K").merge () tables = .ok merged ∧
      (merged.contains 3 = true ∧ merged.score 3 = .zero) ∧ merged.contains 40 = true ∧
        merged.score 2 = .one ∧ merged.contains 4 = false ∧ merged.words.slots.size = 41 := by
  obtain ⟨tables, merged, htables, hmerged, hcontains, hfirst, -, -, hwords, -⟩ :=
    merge_recorded "K" threeRankings (by decide)
  refine ⟨tables, merged, htables, hmerged, ⟨(hcontains 3).mpr (by decide), ?_⟩,
    (hcontains 40).mpr (by decide), ?_, ?_, ?_⟩
  · rw [hfirst [] 3 ⟨0xbf800000⟩ [(3, .one), (3, .one), (40, ⟨0x7fc00000⟩), (2, .one)] rfl (by decide)]
    decide +kernel
  · rw [hfirst [(3, ⟨0xbf800000⟩), (3, .one), (3, .one), (40, ⟨0x7fc00000⟩)] 2 .one [] rfl (by decide)]
    decide +kernel
  · rw [← Bool.not_eq_true, hcontains]
    decide
  · rw [hwords]
    decide +kernel

end RankTable

end FederatedSearch
