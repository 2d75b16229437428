import FederatedSearch.Index.Matching
import FederatedSearch.Proofs.Act.Outcome
import FederatedSearch.Proofs.Keys.Algebra

/-!
# Queries that are the same

Two queries are the same if they differ at most in the capacities of their key sets. Such queries
match the same documents with the same scores and fail in the same way, on every segment. So what is
remembered for one of them is as good for the other.

Whether a query can be evaluated at all does not depend on the segment: every pattern in it has to
compile, also in a clause that makes no difference.

## Main definitions

* `Query.compiles` — all patterns of the query can be compiled

## Main results

* `IndexedSegment.matching_eq_of_same`, `Segment.search_eq_of_same`
* `IndexedSegment.exists_matching_iff` — the evaluation succeeds just if all patterns compile
-/

namespace FederatedSearch

/-! ### Being the same -/

namespace Query

mutual

theorem same_refl : ∀ q : Query, same q q = true
  | all => by simp [same]
  | term _ _ => by simp [same]
  | range _ _ _ => by simp [same]
  | present _ => by simp [same]
  | wildcard _ _ => by simp [same]
  | regex _ _ => by simp [same]
  | bool must should filter mustNot => by
    simp [same, sameAll_refl must, sameAll_refl should, sameAll_refl filter, sameAll_refl mustNot]
  | joinKeys _ keys => by simp [same, KeySet.beq_refl keys]

theorem sameAll_refl : ∀ qs : List Query, sameAll qs qs = true
  | [] => rfl
  | q :: qs => by rw [sameAll, same_refl q, sameAll_refl qs]; rfl

end

mutual

theorem same_symm : ∀ {q r : Query}, same q r = true → same r q = true
  | all, r, h => by cases r <;> simp_all [same]
  | term _ _, r, h => by cases r <;> simp_all [same]
  | range _ _ _, r, h => by cases r <;> simp_all [same]
  | present _, r, h => by cases r <;> simp_all [same]
  | wildcard _ _, r, h => by cases r <;> simp_all [same]
  | regex _ _, r, h => by cases r <;> simp_all [same]
  | bool must should filter mustNot, r, h => by
    cases r with
    | bool must' should' filter' mustNot' =>
      simp only [same, Bool.and_eq_true] at h ⊢
      obtain ⟨⟨⟨hm, hs⟩, hf⟩, hn⟩ := h
      exact ⟨⟨⟨sameAll_symm hm, sameAll_symm hs⟩, sameAll_symm hf⟩, sameAll_symm hn⟩
    | _ => simp [same] at h
  | joinKeys field keys, r, h => by
    cases r with
    | joinKeys other others =>
      simp only [same, Bool.and_eq_true, beq_iff_eq] at h ⊢
      exact ⟨h.1.symm, KeySet.beq_symm h.2⟩
    | _ => simp [same] at h

theorem sameAll_symm : ∀ {qs rs : List Query}, sameAll qs rs = true → sameAll rs qs = true
  | [], [], _ => rfl
  | [], _ :: _, h => by simp [sameAll] at h
  | _ :: _, [], h => by simp [sameAll] at h
  | q :: qs, r :: rs, h => by
    simp only [sameAll, Bool.and_eq_true] at h ⊢
    exact ⟨same_symm h.1, sameAll_symm h.2⟩

end

end Query

/-! ### The same documents -/

variable [PatternEngines]

namespace IndexedSegment

variable (s : IndexedSegment)

mutual

/-- **Queries that are the same** match the same documents. -/
theorem matching_eq_of_same : ∀ {q r : Query}, Query.same q r = true → s.matching q = s.matching r
  | .all, r, h => by cases r <;> simp_all [Query.same]
  | .term _ _, r, h => by cases r <;> simp_all [Query.same]
  | .range _ _ _, r, h => by cases r <;> simp_all [Query.same]
  | .present _, r, h => by cases r <;> simp_all [Query.same]
  | .wildcard _ _, r, h => by cases r <;> simp_all [Query.same]
  | .regex _ _, r, h => by cases r <;> simp_all [Query.same]
  | .bool must should filter mustNot, r, h => by
    cases r with
    | bool must' should' filter' mustNot' =>
      simp only [Query.same, Bool.and_eq_true] at h
      obtain ⟨⟨⟨hm, hs⟩, hf⟩, hn⟩ := h
      simp only [matching, matchingAll_eq_of_sameAll hm, matchingAll_eq_of_sameAll hs,
        matchingAll_eq_of_sameAll hf, matchingAll_eq_of_sameAll hn]
    | _ => simp [Query.same] at h
  | .joinKeys field keys, r, h => by
    cases r with
    | joinKeys other others =>
      simp only [Query.same, Bool.and_eq_true, beq_iff_eq] at h
      obtain ⟨rfl, hkeys⟩ := h
      simp only [matching, KeySet.contains_eq_of_beq hkeys]
    | _ => simp [Query.same] at h

theorem matchingAll_eq_of_sameAll :
    ∀ {qs rs : List Query}, Query.sameAll qs rs = true → s.matchingAll qs = s.matchingAll rs
  | [], [], _ => rfl
  | [], _ :: _, h => by simp [Query.sameAll] at h
  | _ :: _, [], h => by simp [Query.sameAll] at h
  | q :: qs, r :: rs, h => by
    simp only [Query.sameAll, Bool.and_eq_true] at h
    rw [matchingAll, matchingAll, matching_eq_of_same h.1, matchingAll_eq_of_sameAll h.2]

end

end IndexedSegment

theorem Segment.search_eq_of_same (s : Segment) {q r : Query} (h : (q == r) = true) (scored : Bool) :
    s.search q scored = s.search r scored := by
  cases s with
  | damaged s => rfl
  | indexed s => rw [Segment.search, IndexedSegment.search, s.matching_eq_of_same h]; rfl

/-! ### Patterns that compile -/

namespace Query

mutual

/-- All patterns of the query can be compiled. -/
def compiles : Query → Bool
  | wildcard _ pattern => (PatternEngines.wildcard pattern).toOption.isSome
  | regex _ pattern => (PatternEngines.regex pattern).toOption.isSome
  | bool must should filter mustNot =>
    compilesAll must && compilesAll should && compilesAll filter && compilesAll mustNot
  | _ => true

def compilesAll : List Query → Bool
  | [] => true
  | q :: qs => q.compiles && compilesAll qs

end

end Query

namespace IndexedSegment

variable (s : IndexedSegment)

mutual

/-- **A query can be evaluated** just if its patterns compile, whatever the segment. -/
theorem exists_matching_iff :
    ∀ q : Query, (∃ found, s.matching q = .ok found) ↔ q.compiles = true
  | .all => by simp [matching, Query.compiles]
  | .term _ _ => by simp [matching, Query.compiles]
  | .range _ _ _ => by simp [matching, Query.compiles]
  | .present _ => by simp [matching, Query.compiles]
  | .joinKeys _ _ => by simp [matching, Query.compiles]
  | .wildcard _ pattern => by
    rw [matching, Query.compiles]
    cases PatternEngines.wildcard pattern <;> simp [Except.toOption]
  | .regex _ pattern => by
    rw [matching, Query.compiles]
    cases PatternEngines.regex pattern <;> simp [Except.toOption]
  | .bool must should filter mustNot => by
    simp only [Query.compiles, Bool.and_eq_true, ← exists_matchingAll_iff, matching, bind_eq_ok]
    constructor
    · rintro ⟨_, m, hm, t, ht, f, hf, n, hn, -⟩
      exact ⟨⟨⟨⟨m, hm⟩, t, ht⟩, f, hf⟩, n, hn⟩
    · rintro ⟨⟨⟨⟨m, hm⟩, t, ht⟩, f, hf⟩, n, hn⟩
      exact ⟨_, m, hm, t, ht, f, hf, n, hn, rfl⟩

theorem exists_matchingAll_iff :
    ∀ qs : List Query, (∃ found, s.matchingAll qs = .ok found) ↔ Query.compilesAll qs = true
  | [] => by simp [matchingAll, Query.compilesAll]
  | q :: qs => by
    simp only [Query.compilesAll, Bool.and_eq_true, ← exists_matching_iff q,
      ← exists_matchingAll_iff qs, matchingAll, bind_eq_ok]
    constructor
    · rintro ⟨_, m, hm, ms, hms, -⟩
      exact ⟨⟨m, hm⟩, ms, hms⟩
    · rintro ⟨⟨m, hm⟩, ms, hms⟩
      exact ⟨_, m, hm, ms, hms, rfl⟩

end

end IndexedSegment

end FederatedSearch
