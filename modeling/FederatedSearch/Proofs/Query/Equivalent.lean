import FederatedSearch.Engine.Constraints
import FederatedSearch.Proofs.Collector.JoinKeys
import FederatedSearch.Proofs.NameMap
import FederatedSearch.Proofs.Query.Restrict

/-!
# Queries that nothing tells apart

The queries of a call are narrowed by sets of keys, and the same set can come in many shapes: as wide
as the segments that happened to be remembered, or collected in another order. Two queries are
equivalent if every segment makes the same of them, however their key sets look. Then segments answer
both alike.

## Main definitions

* `Query.Equivalent` — every segment makes the same of both queries
* `KeySet.Alike`, `Constraints.Alike` — the same keys, in whatever shape

## Main results

* `Constraints.narrow_eq` — constraints are filters
* `Answered.of_equivalent` — segments answer equivalent queries alike
* `Constraints.Alike.narrow` — constraints that are alike make equivalent queries
-/

namespace FederatedSearch

/-! ### Equivalent queries -/

namespace Query

variable [PatternEngines]

/-- Every segment makes the same of both queries. -/
def Equivalent (q r : Query) : Prop := ∀ s : IndexedSegment, s.matching q = s.matching r

theorem Equivalent.refl (q : Query) : q.Equivalent q := fun _ => rfl

theorem equivalent_joinKeys (field : String) {keys others : KeySet}
    (h : ∀ key, keys.contains key = others.contains key) :
    (joinKeys field keys).Equivalent (joinKeys field others) := by
  intro s
  simp only [IndexedSegment.matching, h]

/-- Equivalent filters narrow a query to equivalent queries. -/
theorem Equivalent.restrict (q : Query) {filters others : List Query}
    (h : List.Forall₂ Equivalent filters others) :
    (q.restrict filters []).Equivalent (q.restrict others []) := by
  intro s
  have hall : ∀ clauses : List Query,
      s.matchingAll (clauses ++ filters) = s.matchingAll (clauses ++ others) := by
    have hmap : filters.mapM s.matching = others.mapM s.matching := by
      induction h with
      | nil => rfl
      | cons hfirst _ ih => rw [List.mapM_cons, List.mapM_cons, hfirst s, ih]
    intro clauses
    rw [IndexedSegment.matchingAll_eq_mapM, IndexedSegment.matchingAll_eq_mapM, List.mapM_append,
      List.mapM_append, hmap]
  cases hkind : q.isBool with
  | true =>
    obtain ⟨must, should, filter, mustNot, rfl⟩ := eq_bool_of_isBool hkind
    rw [restrict_bool, restrict_bool, IndexedSegment.matching, IndexedSegment.matching, hall]
  | false =>
    by_cases hnone : filters = []
    · subst hnone
      obtain rfl := List.forall₂_nil_left_iff.mp h
      rfl
    · have hnone' : others ≠ [] := by
        rintro rfl
        exact hnone (List.forall₂_nil_right_iff.mp h)
      have hmore := hall []
      rw [List.nil_append, List.nil_append] at hmore
      rw [restrict_of_not_isBool hkind (fun h => hnone h.1),
        restrict_of_not_isBool hkind (fun h => hnone' h.1), IndexedSegment.matching,
        IndexedSegment.matching, hmore]

theorem Equivalent.withFilter (q : Query) {filter other : Query} (h : filter.Equivalent other) :
    (q.withFilter filter).Equivalent (q.withFilter other) :=
  Equivalent.restrict q (.cons h .nil)

omit [PatternEngines] in
/-- Narrowing twice is narrowing once. -/
theorem restrict_restrict (q : Query) (filters more : List Query) :
    (q.restrict filters []).restrict more [] = q.restrict (filters ++ more) [] := by
  cases hkind : q.isBool with
  | true =>
    obtain ⟨must, should, filter, mustNot, rfl⟩ := eq_bool_of_isBool hkind
    rw [restrict_bool, restrict_bool, restrict_bool, List.append_assoc, List.append_nil,
      List.append_nil]
  | false =>
    by_cases hnone : filters = []
    · subst hnone
      rfl
    · have hmore : filters ++ more ≠ [] := by simp [hnone]
      rw [restrict_of_not_isBool hkind (fun h => hnone h.1), restrict_bool,
        restrict_of_not_isBool hkind (fun h => hmore h.1), List.append_nil]

end Query

section

variable [PatternEngines] {q r : Query} (h : q.Equivalent r)
include h

theorem Segment.search_eq_of_equivalent (s : Segment) (scored : Bool) :
    s.search q scored = s.search r scored := by
  cases s with
  | damaged s => rfl
  | indexed s => rw [Segment.search, Segment.search, IndexedSegment.search, IndexedSegment.search, h s]

theorem Segment.answers_iff_of_equivalent (s : Segment) (field : String) :
    s.Answers q field ↔ s.Answers r field := by
  have hsearch : s.search q true = s.search r true := s.search_eq_of_equivalent h true
  constructor
  · rintro ⟨hreadable, hadmitted⟩
    exact ⟨hreadable, hsearch ▸ hadmitted⟩
  · rintro ⟨hreadable, hadmitted⟩
    exact ⟨hreadable, hsearch ▸ hadmitted⟩

/-- The answer of segments to equivalent queries. -/
theorem Answered.of_equivalent {field : String} {segments : List Placed} {found : Nat → Prop}
    (hfound : Answered q field segments found) : Answered r field segments found := by
  refine ⟨fun placed hmem => ?_, fun key => ?_⟩
  · exact (placed.segment.answers_iff_of_equivalent h field).mp (hfound.answers placed hmem)
  · rw [hfound.found_iff]
    simp only [Segment.HasKey, Segment.search_eq_of_equivalent h]

end

/-! ### Key sets -/

/-- Two sets with the same keys. Key 0 is clear in the bits of both, so that they are both plain or
both complements. -/
structure KeySet.Alike (a b : KeySet) : Prop where
  proper : a.Proper
  proper' : b.Proper
  contains_eq : ∀ key : Nat, a.contains key = b.contains key

namespace KeySet

variable {a b c d : KeySet}

theorem Alike.inverted_eq (h : a.Alike b) : a.inverted = b.inverted := by
  rw [← contains_noKey h.proper, ← contains_noKey h.proper', h.contains_eq]

theorem Alike.negate (h : a.Alike b) : a.negate.Alike b.negate :=
  ⟨h.proper.negate, h.proper'.negate, fun key => by
    rw [contains_negate, contains_negate, h.contains_eq]⟩

theorem Alike.meet (h : a.Alike b) (h' : c.Alike d) : (a.meet c).Alike (b.meet d) :=
  ⟨h.proper.meet h'.proper, h.proper'.meet h'.proper', fun key => by
    rw [contains_meet a (.inr h'.proper), contains_meet b (.inr h'.proper'), h.contains_eq,
      h'.contains_eq]⟩

theorem Alike.union (h : a.Alike b) (h' : c.Alike d) : (a.union c).Alike (b.union d) :=
  ⟨h.proper.union h'.proper, h.proper'.union h'.proper', fun key => by
    rw [contains_union, contains_union, h.contains_eq, h'.contains_eq]⟩

theorem alike_plain {s t : KeyBits} (hs : s.Proper) (ht : t.Proper) (h : s.Alike t) :
    (plain s).Alike (plain t) := ⟨hs, ht, fun key => by rw [contains_plain, contains_plain, h]⟩

end KeySet

/-- The keys that segments answer, in whatever bits they were gathered. -/
theorem Answered.alike [PatternEngines] {query : Query} {field : String} {segments : List Placed}
    {s t : KeyBits} (hs : Answered query field segments (s.contains · = true))
    (ht : Answered query field segments (t.contains · = true)) :
    (KeySet.plain s).Alike (KeySet.plain t) := by
  have hproper : ∀ {bits : KeyBits}, Answered query field segments (bits.contains · = true) →
      bits.Proper := by
    intro bits hbits
    rw [KeyBits.Proper, ← Bool.not_eq_true, hbits.found_iff]
    rintro ⟨placed, -, h0, -⟩
    exact h0 rfl
  refine KeySet.alike_plain (hproper hs) (hproper ht) fun key => ?_
  rw [Bool.eq_iff_iff, hs.found_iff, ht.found_iff]

/-! ### Constraints -/

namespace Constraints

/-- Constraints on the same fields by the same keys. -/
def Alike (a b : Constraints) : Prop :=
  ∀ field, Option.Rel KeySet.Alike (a.sets.find? field) (b.sets.find? field)

theorem alike_empty : empty.Alike empty := fun _ => .none

/-- One more demand on both. -/
theorem Alike.require {a b : Constraints} (h : a.Alike b) (field : String) {keys others : KeySet}
    (hkeys : keys.Alike others) : (a.require field keys).Alike (b.require field others) := by
  intro other
  rw [Constraints.require, Constraints.require, NameMap.find?_update, NameMap.find?_update]
  by_cases heq : field = other
  · rw [if_pos heq, if_pos heq]
    have hcurrent := h field
    refine .some ?_
    generalize a.sets.find? field = current, b.sets.find? field = current' at hcurrent
    cases hcurrent with
    | none => exact hkeys
    | some hcurrent => exact hcurrent.meet hkeys
  · rw [if_neg heq, if_neg heq]
    exact h other

/-- The constraints as filters. -/
def filters (c : Constraints) : List Query := c.sets.entries.map fun e => .joinKeys e.1 e.2

/-- **Constraints are filters.** -/
theorem narrow_eq (c : Constraints) (q : Query) : c.narrow q = q.restrict c.filters [] := by
  have hloop : ∀ (entries : List (String × KeySet)) (q : Query),
      entries.foldl (fun q e => q.withFilter (.joinKeys e.1 e.2)) q =
        q.restrict (entries.map fun e => .joinKeys e.1 e.2) [] := by
    intro entries
    induction entries with
    | nil => exact fun _ => rfl
    | cons e entries ih =>
      intro q
      rw [List.foldl_cons, ih, Query.withFilter, Query.restrict_restrict]
      rfl
  exact hloop c.sets.entries q

/-- **Constraints that are alike** narrow a query to equivalent queries. -/
theorem Alike.narrow [PatternEngines] {a b : Constraints} (h : a.Alike b) (q : Query) :
    (a.narrow q).Equivalent (b.narrow q) := by
  rw [narrow_eq, narrow_eq]
  refine Query.Equivalent.restrict q ?_
  rw [filters, filters, List.forall₂_map_left_iff, List.forall₂_map_right_iff]
  refine (NameMap.forall₂_entries h).imp ?_
  rintro ⟨field, keys⟩ ⟨other, others⟩ ⟨rfl, hkeys⟩
  exact Query.equivalent_joinKeys field hkeys.contains_eq

end Constraints

end FederatedSearch
