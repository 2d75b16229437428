import FederatedSearch.Proofs.Collector.Collapsed
import FederatedSearch.Proofs.Keys.KeyTable

/-!
# Tables that several groups make

A table of related documents keeps the first value that is recorded for a key: in a group that of its
first segment with the key, and of several groups that of the first group. So where two segments have
different values for a key, it depends on how segments are spread over groups which of them the table
has in the end.

It does not if the first matches with a key in any two segments have the same value. This is all that
it takes, since the matches of one segment always come in the same order.

## Main definitions

* `Collector.Tabulates` — a collector of values by key
* `Collector.Settled` — no two segments have different values for a key

## Main results

* `Tabulates.takes`, `Tabulates.comes` — what groups record, and what such a search comes to
* `Settled.lookup_eq` — the first values, in whatever order the segments come
* `Settled.agrees` — tables that look the same, however segments are spread
-/

namespace FederatedSearch

namespace Collector

variable {α β : Type} {field : String} {query : Query} {segments others more : List Placed}

/-- Record a value of each match with a key, unless the key is too great. -/
structure Tabulates (c : Collector Unit (KeyTable α) (KeyTable α) (KeyTable α)) (field : String)
    (value : Hit → α) (greatest : JoinKey) (refuse : JoinKey → Failure) : Prop where
  plain : c.Plain .docs [field]
  start_eq : c.start = pure .empty
  collect_eq : ∀ (e : Offer) t, c.collect (.of e.1) e.2 t =
    if e.key field = noKey then pure t
    else Process.ofExcept (if greatest < e.key field then .error (refuse (e.key field))
      else .ok (t.record (e.key field) (value e.hit)))
  finish_eq : ∀ t, c.finish t = pure t
  merge_eq : ∀ tables, c.merge () tables = .ok (.mergeAll tables)

theorem tabulates_rankScores (field : String) :
    Tabulates (rankScores field) field (fun hit => ScoreCode.ofScore hit.score) RankTable.maxKey
      fun key => .keyTooLarge (.score key RankTable.maxKey) where
  plain := plain_rankScores field
  start_eq := rfl
  collect_eq _ _ := rfl
  finish_eq _ := rfl
  merge_eq _ := rfl

theorem tabulates_firstDocs (field : String) :
    Tabulates (firstDocs field) field Hit.doc DocTable.maxKey
      fun key => .keyTooLarge (.sort key DocTable.maxKey) where
  plain := plain_firstDocs field
  start_eq := rfl
  collect_eq _ _ := rfl
  finish_eq _ := rfl
  merge_eq _ := rfl

/-! ### What is recorded -/

/-- What is recorded for matches, in order. -/
def recorded (value : Hit → α) (field : String) (items : List Offer) : List (JoinKey × α) :=
  (keyed field items).map fun x => (x.1, value x.2)

theorem recorded_flatten (value : Hit → α) (groups : List (List Offer)) :
    recorded value field groups.flatten = (groups.map (recorded value field)).flatten := by
  rw [recorded, keyed_flatten, List.map_flatten, List.map_map]
  rfl

theorem lookup_recorded (value : Hit → α) (items : List Offer) (key : JoinKey) :
    (recorded value field items).lookup key = ((keyed field items).lookup key).map value :=
  KeyTable.lookup_map_value value (keyed field items) key

/-- The keys of these matches are all admitted. -/
def Admits (field : String) (greatest : JoinKey) (items : List Offer) : Prop :=
  ∀ x ∈ keyed field items, x.1 ≤ greatest

theorem Admits.subset {greatest : JoinKey} {items rest : List Offer} (h : Admits field greatest items)
    (hsub : rest ⊆ items) : Admits field greatest rest := by
  intro x hx
  obtain ⟨e, he, hkey⟩ := mem_keyed.mp hx
  exact h x (mem_keyed.mpr ⟨e, hsub he, hkey⟩)

theorem Admits.perm {greatest : JoinKey} {items rest : List Offer} (h : Admits field greatest items)
    (hperm : items.Perm rest) : Admits field greatest rest := h.subset hperm.symm.subset

section Tabulates

variable {c : Collector Unit (KeyTable α) (KeyTable α) (KeyTable α)} {value : Hit → α}
  {greatest : JoinKey} {refuse : JoinKey → Failure} (h : Tabulates c field value greatest refuse)
include h

/-- One more match. -/
theorem Tabulates.endsOnly_collect {done : List Offer} {t : KeyTable α}
    (ht : Admits field greatest done ∧ t.Records (recorded value field done)) (e : Offer) :
    (c.collect (.of e.1) e.2 t).EndsOnly
      (fun t => Admits field greatest (done ++ [e]) ∧ t.Records (recorded value field (done ++ [e])))
      fun _ => ¬ Admits field greatest [e] := by
  rw [h.collect_eq, recorded, Admits, Admits, keyed_append]
  by_cases hkey : e.key field = noKey
  · have hnone : keyed field [e] = [] := by simp [keyed, hkey]
    rw [if_pos hkey, hnone, List.append_nil]
    exact Process.endsOnly_pure ht
  · have hone : keyed field [e] = [(e.key field, e.hit)] := by simp [keyed, hkey]
    rw [if_neg hkey, hone, List.map_append, List.forall_mem_singleton]
    refine Process.endsOnly_ofExcept ?_
    by_cases hgreat : greatest < e.key field
    · rw [if_pos hgreat]
      exact Nat.not_le.mpr hgreat
    · rw [if_neg hgreat]
      exact ⟨List.forall_mem_append.mpr ⟨ht.1, List.forall_mem_singleton.mpr (Nat.not_lt.mp hgreat)⟩,
        ht.2.record _ _⟩

/-- **What groups record.** A group fails only if it has a match whose key is too great. -/
theorem Tabulates.takes (items : List Offer) :
    c.Takes .any items
      (fun done t _ => Admits field greatest done ∧ t.Records (recorded value field done))
      (fun done t _ => Admits field greatest done ∧ t.Records (recorded value field done))
      fun _ => ¬ Admits field greatest items := by
  refine takes_of_endsOnly ?_ (fun done e he t ht => ?_) fun done t ht => ?_
  · rw [h.start_eq]
    exact Process.endsOnly_pure ⟨nofun, KeyTable.records_empty⟩
  · exact (h.endsOnly_collect ht e).mono (fun _ h => h) fun _ =>
      mt fun hall => hall.subset (List.cons_subset.mpr ⟨he, List.nil_subset _⟩)
  · rw [h.finish_eq]
    exact Process.endsOnly_pure ht

/-- The tables of all groups make a table of what is recorded in all of them, group by group. -/
theorem Tabulates.merge_tables {groups : List (List Offer)} {tables : List (KeyTable α)}
    (hall : List.Forall₂ (fun done t => Admits field greatest done ∧ t.Records (recorded value field done))
      groups tables) (s : Unit) :
    Meets (fun t => Admits field greatest groups.flatten ∧
      t.Records (recorded value field groups.flatten)) (fun _ => False) (c.merge s tables) := by
  rw [h.merge_eq]
  refine ⟨fun x hx => ?_, ?_⟩
  · rw [keyed_flatten] at hx
    obtain ⟨part, hpart, hx⟩ := List.mem_flatten.mp hx
    obtain ⟨group, hgroup, rfl⟩ := List.mem_map.mp hpart
    obtain ⟨t, -, hadmits, -⟩ := exists_of_forall₂ hall hgroup
    exact hadmits x hx
  · rw [recorded_flatten]
    exact KeyTable.Records.mergeAll (List.forall₂_map_left_iff.mpr (hall.imp fun _ _ h => h.2))

/-- **A search for a table** can only succeed if every segment can be searched and all keys are admitted, and
then it has what is recorded for the matches of all groups. Otherwise one of the two is not so. -/
theorem Tabulates.comes [PatternEngines] (core : String) (groups : List (List Placed)) (query : Query) :
    c.Comes core groups query
      (fun t => CanSearch query groups.flatten ∧ Admits field greatest (offers query groups.flatten) ∧
        t.Records (recorded value field (offers query groups.flatten)))
      fun _ => ¬ Admits field greatest (offers query groups.flatten) ∨ ¬ CanSearch query groups.flatten := by
  refine (h.takes (offers query groups.flatten)).comes h.plain (List.Subset.refl _) (fun _ h => h)
    (fun _ s tables _ hall => ?_) trivial core
  have hmerge := h.merge_tables hall s
  rw [offers_flatten] at hmerge
  exact hmerge.mono (fun _ h => h) fun _ => False.elim

end Tabulates

/-! ### Values that are settled -/

/-- The first matches with a key in any two segments have the same value. -/
def Settled [PatternEngines] (value : Hit → β) (field : String) (query : Query)
    (segments : List Placed) : Prop :=
  ∀ placed ∈ segments, ∀ other ∈ segments, ∀ key hit hit',
    (keyed field (offers query [placed])).lookup key = some hit →
      (keyed field (offers query [other])).lookup key = some hit' → value hit = value hit'

/-- What is found in some lists together is found in the first of them that has the key. -/
theorem exists_first_of_lookup {γ : Type} {f : γ → List (JoinKey × β)} {parts : List γ} {key : JoinKey}
    {x : β} (h : (parts.map f).flatten.lookup key = some x) :
    ∃ before part after, parts = before ++ part :: after ∧
      (before.map f).flatten.lookup key = none ∧ (f part).lookup key = some x := by
  induction parts with
  | nil => exact nomatch h
  | cons first parts ih =>
    rw [List.map_cons, List.flatten_cons, List.lookup_append, Option.or_eq_some_iff] at h
    rcases h with h | ⟨hnone, h⟩
    · exact ⟨[], first, parts, rfl, rfl, h⟩
    · obtain ⟨before, part, after, rfl, hbefore, hpart⟩ := ih h
      refine ⟨first :: before, part, after, rfl, ?_, hpart⟩
      rw [List.map_cons, List.flatten_cons, List.lookup_append, hnone, hbefore]
      rfl

variable [PatternEngines]

/-- The first match with a key is the first one of a segment. -/
theorem exists_of_lookup_keyed {key : JoinKey} {hit : Hit}
    (h : (keyed field (offers query segments)).lookup key = some hit) :
    ∃ placed ∈ segments, (keyed field (offers query [placed])).lookup key = some hit := by
  have hparts : keyed field (offers query segments) =
      (segments.map fun placed => keyed field (offers query [placed])).flatten := by
    rw [offers, List.flatMap_def, keyed_flatten, List.map_map]
    refine congrArg _ (List.map_congr_left fun placed _ => ?_)
    rw [offers, List.flatMap_singleton, Function.comp_apply]
  rw [hparts] at h
  obtain ⟨before, placed, after, rfl, -, hhit⟩ := exists_first_of_lookup h
  exact ⟨placed, List.mem_append_right _ List.mem_cons_self, hhit⟩

/-- **The first values** are the same in whatever order the segments come. -/
theorem Settled.lookup_eq {value : Hit → β} (h : Settled value field query segments)
    (hothers : others.Perm segments) (hmore : more.Perm segments) (key : JoinKey) :
    ((keyed field (offers query others)).lookup key).map value =
      ((keyed field (offers query more)).lookup key).map value := by
  have hperm : (keyed field (offers query others)).Perm (keyed field (offers query more)) :=
    keyed_perm (offers_perm query (hothers.trans hmore.symm))
  have hsome : ((keyed field (offers query others)).lookup key).isSome =
      ((keyed field (offers query more)).lookup key).isSome := by
    rw [Bool.eq_iff_iff, List.lookup_isSome_iff, List.lookup_isSome_iff]
    simp only [hperm.mem_iff]
  rcases hfirst : (keyed field (offers query others)).lookup key with _ | hit <;>
    rcases hsecond : (keyed field (offers query more)).lookup key with _ | hit' <;>
      rw [hfirst, hsecond] at hsome
  · exact nomatch hsome
  · exact nomatch hsome
  · obtain ⟨placed, hplaced, hhit⟩ := exists_of_lookup_keyed hfirst
    obtain ⟨other, hother, hhit'⟩ := exists_of_lookup_keyed hsecond
    exact congrArg some (h placed (hothers.mem_iff.mp hplaced) other (hmore.mem_iff.mp hother) key
      hit hit' hhit hhit')

/-- Values are settled if all matches with one key have the same value. -/
theorem settled_of_forall {value : Hit → β}
    (h : ∀ x ∈ keyed field (offers query segments), ∀ y ∈ keyed field (offers query segments),
      x.1 = y.1 → value x.2 = value y.2) : Settled value field query segments := by
  have hmem : ∀ placed ∈ segments, ∀ key hit,
      (keyed field (offers query [placed])).lookup key = some hit →
        (key, hit) ∈ keyed field (offers query segments) := by
    intro placed hplaced key hit hlookup
    obtain ⟨before, after, heq, -⟩ := List.lookup_eq_some_iff.mp hlookup
    have hone : (key, hit) ∈ keyed field (offers query [placed]) := by
      rw [heq]
      exact List.mem_append_right _ List.mem_cons_self
    obtain ⟨e, he, hkey, hx⟩ := mem_keyed.mp hone
    obtain ⟨hsegment, hhit⟩ := mem_offers.mp he
    exact mem_keyed.mpr ⟨e, mem_offers.mpr ⟨List.mem_singleton.mp hsegment ▸ hplaced, hhit⟩, hkey, hx⟩
  intro placed hplaced other hother key hit hit' hhit hhit'
  exact h _ (hmem placed hplaced key hit hhit) _ (hmem other hother key hit' hhit') rfl

/-- **Tables that look the same**, in whatever groups the segments are searched. -/
theorem Settled.agrees {value : Hit → α} (look : α → β) {greatest : JoinKey}
    (hsettled : Settled (look ∘ value) field query segments) (hothers : others.Perm segments)
    (hmore : more.Perm segments) {r r' : Except Failure (KeyTable α)}
    (hr : Meets (fun t => CanSearch query others ∧ Admits field greatest (offers query others) ∧
        t.Records (recorded value field (offers query others)))
      (fun _ => ¬ Admits field greatest (offers query others) ∨ ¬ CanSearch query others) r)
    (hr' : Meets (fun t => CanSearch query more ∧ Admits field greatest (offers query more) ∧
        t.Records (recorded value field (offers query more)))
      (fun _ => ¬ Admits field greatest (offers query more) ∨ ¬ CanSearch query more) r') :
    Agrees (fun t t' => ∀ key, (t.get? key).map look = (t'.get? key).map look) r r' := by
  have hperm := hothers.trans hmore.symm
  have hoffers := offers_perm query hperm
  rcases r with failure | t <;> rcases r' with failure' | t'
  · exact .error failure failure'
  · exact (hr.elim (fun h => h (hr'.2.1.perm hoffers.symm)) fun h => h (hr'.1.perm hperm.symm)).elim
  · exact (hr'.elim (fun h => h (hr.2.1.perm hoffers)) fun h => h (hr.1.perm hperm)).elim
  · refine .ok fun key => ?_
    rw [hr.2.2 key, hr'.2.2 key, lookup_recorded, lookup_recorded, Option.map_map, Option.map_map]
    exact hsettled.lookup_eq hothers hmore key

end Collector

end FederatedSearch
