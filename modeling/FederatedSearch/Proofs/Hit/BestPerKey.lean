import FederatedSearch.Hit.BestPerKey
import FederatedSearch.Proofs.Process.Basic
import Mathlib.Data.List.Dedup

/-!
# The best hit of each key

When all hits that were offered are on record there is one record for each key that a hit was offered for,
and it is the greatest packed hit of the key. So the records are known from the offers, up to their order.

## Main definitions

* `BestPerKey.Covers` — the records are the best of the hits offered

## Main results

* `BestPerKey.held_enter`, `BestPerKey.held_setRecord` — the record of each key after a write
* `BestPerKey.offer_of_le`, `BestPerKey.offer_of_lt` — an offer that nobody interferes with
* `BestPerKey.Covers.records_perm` — there is one such list of records
* `BestPerKey.Covers.size_eq` — how many records there are
-/

namespace FederatedSearch

namespace Raising

/-- **What an update does next**, by the record that it saw last and the exchanges that are left to it. -/
theorem next_cases (r : Raising) :
    (r.next = .done ∧ r.target.word ≤ r.seen.word) ∨
    (r.next = .giveUp (.retryBudgetExceeded r.budget) ∧ r.seen.word < r.target.word ∧ r.left = 0) ∨
    (r.next = .exchange ∧ r.seen.word < r.target.word ∧ 0 < r.left) := by
  by_cases hseen : r.target.word ≤ r.seen.word
  · exact .inl ⟨if_pos hseen, hseen⟩
  · have hlt := UInt64.not_le.mp hseen
    by_cases hleft : r.left = 0
    · exact .inr (.inl ⟨(if_neg hseen).trans (if_pos hleft), hlt, hleft⟩)
    · exact .inr (.inr ⟨(if_neg hseen).trans (if_neg hleft), hlt, Nat.pos_of_ne_zero hleft⟩)

variable {target record : PackedHit} {budget : Nat}

theorem next_start_of_le (h : target.word ≤ record.word) :
    (start target record budget).next = .done := if_pos h

theorem next_start_of_budget_eq_zero (h : ¬ target.word ≤ record.word) (hbudget : budget = 0) :
    (start target record budget).next = .giveUp (.retryBudgetExceeded budget) :=
  (if_neg h).trans (if_pos hbudget)

theorem next_start_of_lt (h : ¬ target.word ≤ record.word) (hbudget : budget ≠ 0) :
    (start target record budget).next = .exchange :=
  (if_neg h).trans (if_neg hbudget)

end Raising

namespace BestPerKey

/-! ### Writing a record -/

theorem lookup_cons_eq (r : JoinKey × PackedHit) (rest : List (JoinKey × PackedHit)) (key : JoinKey) :
    (r :: rest).lookup key = if key = r.1 then some r.2 else rest.lookup key := by
  rw [List.lookup_cons]
  by_cases h : key = r.1
  · simp [h]
  · simp [h, beq_false_of_ne h]

section SetRecord

variable (key : JoinKey) (record : PackedHit) (records : List (JoinKey × PackedHit))

theorem keys_setRecord :
    (setRecord key record records).map (·.1) =
      if key ∈ records.map (·.1) then records.map (·.1) else records.map (·.1) ++ [key] := by
  induction records with
  | nil => rfl
  | cons r rest ih =>
    rw [setRecord]
    by_cases h : r.1 = key
    · simp [h]
    · have hne : key ≠ r.1 := fun heq => h heq.symm
      rw [if_neg h, List.map_cons, ih]
      simp only [List.map_cons, List.mem_cons, hne, false_or]
      split <;> rfl

theorem lookup_setRecord (other : JoinKey) :
    (setRecord key record records).lookup other =
      if other = key then some record else records.lookup other := by
  induction records with
  | nil => rw [setRecord, lookup_cons_eq]
  | cons r rest ih =>
    rw [setRecord, lookup_cons_eq]
    by_cases hfirst : r.1 = key
    · rw [if_pos hfirst, lookup_cons_eq, hfirst]
      by_cases h : other = key
      · rw [if_pos h, if_pos h]
      · rw [if_neg h, if_neg h, if_neg h]
    · rw [if_neg hfirst, lookup_cons_eq, ih]
      by_cases h : other = r.1
      · have hne : other ≠ key := fun heq => hfirst (h.symm.trans heq)
        rw [if_pos h, if_neg hne, if_pos h]
      · rw [if_neg h, if_neg h]

variable {records}

theorem nodup_setRecord (h : (records.map (·.1)).Nodup) :
    ((setRecord key record records).map (·.1)).Nodup := by
  rw [keys_setRecord]
  split
  · exact h
  · rename_i hnew
    exact List.nodup_append.mpr ⟨h, by simp, by
      intro a ha b hb heq
      rw [List.mem_singleton.mp hb] at heq
      exact hnew (heq ▸ ha)⟩

end SetRecord

/-- Records are those that are found under their keys. -/
theorem mem_iff_lookup {records : List (JoinKey × PackedHit)} (h : (records.map (·.1)).Nodup)
    {key : JoinKey} {record : PackedHit} :
    (key, record) ∈ records ↔ records.lookup key = some record := by
  induction records with
  | nil => simp
  | cons r rest ih =>
    obtain ⟨hfirst, hrest⟩ := List.nodup_cons.mp h
    rw [lookup_cons_eq, List.mem_cons]
    by_cases hkey : key = r.1
    · have hnot : (key, record) ∉ rest := fun hmem => hfirst (List.mem_map.mpr ⟨_, hmem, hkey⟩)
      rw [if_pos hkey, Option.some.injEq]
      constructor
      · rintro (heq | hmem)
        · rw [← heq]
        · exact absurd hmem hnot
      · intro heq
        exact .inl (Prod.ext hkey heq.symm)
    · rw [if_neg hkey, ih hrest]
      constructor
      · rintro (heq | hfound)
        · exact absurd (congrArg Prod.fst heq) hkey
        · exact hfound
      · exact .inr

/-- What becomes of the record of a key. -/
theorem record?_setRecord (b : BestPerKey) (key other : JoinKey) (record : PackedHit) :
    record? { b with records := setRecord key record b.records } other =
      if other = key then some record else b.record? other :=
  lookup_setRecord key record b.records other

theorem setRecord_setRecord (key : JoinKey) (record record' : PackedHit)
    (records : List (JoinKey × PackedHit)) :
    setRecord key record' (setRecord key record records) = setRecord key record' records := by
  induction records with
  | nil => simp [setRecord]
  | cons r rest ih =>
    by_cases h : r.1 = key
    · simp [setRecord, h]
    · simp [setRecord, h, ih]

theorem held_setRecord (b : BestPerKey) (key other : JoinKey) (record : PackedHit) :
    held { b with records := setRecord key record b.records } other =
      if other = key then record else b.held other := by
  rw [held, record?_setRecord, held]
  split <;> rfl

/-- A record is made where there was none, and all others stay. -/
theorem held_enter (b : BestPerKey) (key other : JoinKey) : (b.enter key).held other = b.held other := by
  rw [enter, held_setRecord]
  split
  · rename_i heq
    rw [heq]
  · rfl

/-! ### What an update does next -/

section Attempts

variable {key : JoinKey} {left : Nat} {r : Raising}

theorem attempts_of_done (h : r.next = .done) : attempts key left r = pure () := by
  rw [attempts.eq_def, h]

theorem attempts_of_giveUp {failure : Failure} (h : r.next = .giveUp failure) :
    attempts key left r = .ofExcept (.error failure) := by
  rw [attempts.eq_def, h]

theorem attempts_of_exchange (h : r.next = .exchange) :
    attempts key (left + 1) r = .weakUpdate (exchange key r) >>= fun found? =>
      found?.elim (pure ()) fun found => attempts key left (r.refused found) := by
  rw [attempts.eq_def, h]
  refine congrArg (Process.weakUpdate (exchange key r) >>= ·) (funext fun found? => ?_)
  cases found? <;> rfl

end Attempts

/-! ### An offer that nobody interferes with -/

section Offer

variable {b : BestPerKey} {key : JoinKey} {hit : Hit}

theorem offer_eq : b.offer key hit =
    (attempts key b.budget (.start hit.pack (b.held key) b.budget)).alone.result (b.enter key) := by
  rw [← b.held_enter key key]
  rfl

theorem offer_of_le (h : hit.pack.word ≤ (b.held key).word) :
    b.offer key hit = (.ok (), b.enter key) := by
  rw [offer_eq, attempts_of_done (Raising.next_start_of_le h)]
  rfl

theorem offer_of_budget_eq_zero (h : ¬ hit.pack.word ≤ (b.held key).word) (hbudget : b.budget = 0) :
    b.offer key hit = (.error (.retryBudgetExceeded b.budget), b.enter key) := by
  rw [offer_eq, attempts_of_giveUp (Raising.next_start_of_budget_eq_zero h hbudget)]
  rfl

/-- The record is still the one that was read, so the first exchange succeeds. -/
theorem offer_of_lt (h : ¬ hit.pack.word ≤ (b.held key).word) (hbudget : b.budget ≠ 0) :
    b.offer key hit = (.ok (), { b with records := setRecord key hit.pack b.records }) := by
  have hnext := Raising.next_start_of_lt h hbudget
  obtain ⟨left, hleft⟩ := Nat.exists_eq_succ_of_ne_zero hbudget
  rw [hleft] at hnext
  have hexchange : exchange key (.start hit.pack (b.held key) (left + 1)) false (b.enter key) =
      (none, { b with records := setRecord key hit.pack b.records }) := by
    rw [exchange, if_pos ⟨b.held_enter key key, rfl⟩, enter, setRecord_setRecord]
    rfl
  rw [offer_eq, hleft, attempts_of_exchange hnext, Process.alone_bind, Act.result_bind,
    Process.alone_weakUpdate, Act.result_ofUpdate, hexchange, ← hleft]
  rfl

end Offer

/-! ### The record of one key -/

/-- The record is the greatest of the packed hits offered. There is none before the first offer. -/
def IsBest (hits : List Hit) : Option PackedHit → Prop
  | some record => hits ≠ [] ∧ (∀ hit ∈ hits, hit.pack.word ≤ record.word) ∧
      (record = .none ∨ ∃ hit ∈ hits, hit.pack = record)
  | none => hits = []

theorem IsBest.perm {hits hits' : List Hit} (hperm : hits.Perm hits') {record : Option PackedHit}
    (h : IsBest hits record) : IsBest hits' record := by
  cases record with
  | none =>
    obtain rfl : hits = [] := h
    exact hperm.nil_eq.symm
  | some record =>
    obtain ⟨hne, hle, hfrom⟩ := h
    refine ⟨fun hnil => hne (hnil ▸ hperm).eq_nil, fun hit hmem => hle hit (hperm.mem_iff.mpr hmem), ?_⟩
    exact hfrom.imp_right fun ⟨hit, hmem, hpack⟩ => ⟨hit, hperm.mem_iff.mp hmem, hpack⟩

theorem word_le_of_isBest {hits : List Hit} {record record' : PackedHit}
    (h : IsBest hits (some record)) (h' : IsBest hits (some record')) : record.word ≤ record'.word := by
  obtain ⟨-, -, hfrom⟩ := h
  rcases hfrom with rfl | ⟨hit, hmem, rfl⟩
  · exact UInt64.zero_le
  · exact h'.2.1 hit hmem

theorem IsBest.unique {hits : List Hit} {record record' : Option PackedHit} (h : IsBest hits record)
    (h' : IsBest hits record') : record = record' := by
  rcases record with _ | record <;> rcases record' with _ | record'
  · rfl
  · exact absurd h h'.1
  · exact absurd h' h.1
  · have hword : record.word = record'.word :=
      UInt64.le_antisymm (word_le_of_isBest h h') (word_le_of_isBest h' h)
    cases record
    cases record'
    exact congrArg (fun word => some (PackedHit.mk word)) hword

/-! ### Offers -/

/-- The hits offered for a key. -/
def hitsOf (offered : List (JoinKey × Hit)) (key : JoinKey) : List Hit :=
  (offered.filter (·.1 = key)).map (·.2)

/-- Every key has the record of the hits offered for it. -/
structure Covers (b : BestPerKey) (offered : List (JoinKey × Hit)) : Prop where
  nodup : (b.records.map (·.1)).Nodup
  isBest : ∀ key, IsBest (hitsOf offered key) (b.record? key)

section Covers

variable {b : BestPerKey} {offered : List (JoinKey × Hit)} (h : b.Covers offered)
include h

theorem Covers.perm {offered' : List (JoinKey × Hit)} (hperm : offered.Perm offered') :
    b.Covers offered' where
  nodup := h.nodup
  isBest key := (h.isBest key).perm ((hperm.filter _).map _)

end Covers

/-- **The records are known** from the offers, up to their order. -/
theorem Covers.records_perm {b b' : BestPerKey} {offered : List (JoinKey × Hit)}
    (h : b.Covers offered) (h' : b'.Covers offered) : b.records.Perm b'.records := by
  have hrecord : ∀ key, b.record? key = b'.record? key :=
    fun key => (h.isBest key).unique (h'.isBest key)
  refine (List.perm_ext_iff_of_nodup (List.Nodup.of_map _ h.nodup)
    (List.Nodup.of_map _ h'.nodup)).mpr fun ⟨key, record⟩ => ?_
  rw [mem_iff_lookup h.nodup, mem_iff_lookup h'.nodup]
  exact Eq.congr_left (hrecord key)

theorem hitsOf_eq_nil_iff {offered : List (JoinKey × Hit)} {key : JoinKey} :
    hitsOf offered key = [] ↔ key ∉ offered.map (·.1) := by
  rw [hitsOf, List.map_eq_nil_iff, List.filter_eq_nil_iff, List.mem_map, not_exists]
  exact forall_congr' fun offer => by simp

section Keys

variable {b : BestPerKey} {offered : List (JoinKey × Hit)} (h : b.Covers offered)
include h

/-- Just the keys of offers are on record. -/
theorem Covers.mem_keys_iff {key : JoinKey} :
    key ∈ b.records.map (·.1) ↔ key ∈ offered.map (·.1) := by
  have hbest := h.isBest key
  rw [← not_iff_not, ← hitsOf_eq_nil_iff]
  rcases hrecord : b.record? key with _ | record
  · rw [hrecord] at hbest
    refine iff_of_true (fun hkey => ?_) hbest
    obtain ⟨⟨_, record⟩, hmem, rfl⟩ := List.mem_map.mp hkey
    exact nomatch hrecord.symm.trans ((mem_iff_lookup h.nodup).mp hmem)
  · rw [hrecord] at hbest
    have hmem : (key, record) ∈ b.records := (mem_iff_lookup h.nodup).mpr hrecord
    exact iff_of_false (not_not_intro (List.mem_map_of_mem hmem)) hbest.1

/-- **The number of records** is known from the keys of the offers. -/
theorem Covers.size_eq : b.size = (offered.map (·.1)).dedup.length := by
  have hperm : (b.records.map (·.1)).Perm (offered.map (·.1)).dedup := by
    refine (List.perm_ext_iff_of_nodup h.nodup (List.nodup_dedup _)).mpr fun key => ?_
    rw [h.mem_keys_iff, List.mem_dedup]
  rw [size, ← hperm.length_eq, List.length_map]

end Keys

end BestPerKey

end FederatedSearch
