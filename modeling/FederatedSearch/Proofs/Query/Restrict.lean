import FederatedSearch.Pattern.Standard
import FederatedSearch.Proofs.Query.Same

/-!
# Narrowed queries

Narrowing a query by filters and exclusions is meant to leave the documents that match the query,
match every filter and match no exclusion, with the scores that they had. Whether it does depends on
what the query is.

A query that is not a Boolean node becomes the one required clause of a new node, which does what is
meant. A Boolean node takes the filters in among its own clauses, and what its optional clauses ask
for depends on those: one of them has to match as long as nothing else is required, and a filter is
something required. So a node that required nothing but one of its optional clauses requires none of
them any more as soon as it has been narrowed by a filter. It then has documents that the query
itself does not have.

`Query.relaxedBy` is the query as it is meant after that, and `IndexedSegment.accepts_restrict` says
that in terms of it narrowing does what it should. The scores are right in any case.

## Main definitions

* `IndexedSegment.accepts`, `IndexedSegment.scoreOf` — what a segment makes of one document
* `Query.relaxedBy` — a query whose optional clauses are not asked for any more

## Main results

* `IndexedSegment.accepts_bool`, `IndexedSegment.scoreOf_bool` — the reading of a Boolean node
* `IndexedSegment.accepts_restrict` — the reading of a narrowed query
* `IndexedSegment.not_accepts_restrict` — it is not always what is meant
-/

namespace FederatedSearch

/-! ### Sets of documents -/

namespace DocSet

theorem contains_foldl_inter (sets : List DocSet) (s : DocSet) (doc : Nat) :
    (sets.foldl inter s).contains doc = true ↔
      s.contains doc = true ∧ ∀ t ∈ sets, t.contains doc = true := by
  induction sets generalizing s with
  | nil => simp
  | cons t sets ih =>
    rw [List.foldl_cons, ih, contains_inter, Bool.and_eq_true, List.forall_mem_cons, and_assoc]

theorem contains_foldl_union (sets : List DocSet) (s : DocSet) (doc : Nat) :
    (sets.foldl union s).contains doc = true ↔
      s.contains doc = true ∨ ∃ t ∈ sets, t.contains doc = true := by
  induction sets generalizing s with
  | nil => simp
  | cons t sets ih =>
    rw [List.foldl_cons, ih, contains_union, Bool.or_eq_true, List.exists_mem_cons_iff, or_assoc]

theorem contains_foldl_diff (sets : List DocSet) (s : DocSet) (doc : Nat) :
    (sets.foldl diff s).contains doc = true ↔
      s.contains doc = true ∧ ∀ t ∈ sets, t.contains doc = false := by
  induction sets generalizing s with
  | nil => simp
  | cons t sets ih =>
    rw [List.foldl_cons, ih, contains_diff, Bool.and_eq_true, Bool.not_eq_true',
      List.forall_mem_cons, and_assoc]

end DocSet

/-! ### Boolean nodes -/

namespace Matches

/-- What the clauses of a Boolean node ask of a document, its exclusions apart. -/
theorem contains_bool (all : DocSet) (must should filter mustNot : List Matches) (doc : Nat) :
    (bool all must should filter mustNot).docs.contains doc = true ↔
      (if must ++ filter = [] then
          if should = [] then all.contains doc = true else ∃ m ∈ should, m.docs.contains doc = true
        else ∀ m ∈ must ++ filter, m.docs.contains doc = true) ∧
      ∀ m ∈ mustNot, m.docs.contains doc = false := by
  rw [bool]
  simp only [DocSet.contains_foldl_diff, List.forall_mem_map]
  refine and_congr_left fun _ => ?_
  rcases must ++ filter with _ | ⟨m, required⟩
  · cases should with
    | nil => simp [common]
    | cons m should =>
      simp only [common, List.map_nil, List.isEmpty_cons, if_true, reduceCtorEq, if_false,
        Bool.false_eq_true]
      rw [DocSet.contains_foldl_union, DocSet.contains_empty, List.map_cons,
        List.exists_mem_cons_iff, List.exists_mem_cons_iff]
      simp
  · simp [common, DocSet.contains_foldl_inter]

theorem score_bool {all : DocSet} {must should filter mustNot : List Matches} {doc : Nat}
    (h : (bool all must should filter mustNot).docs.contains doc = true) :
    (bool all must should filter mustNot).score doc =
      ((must ++ should).map (·.score doc)).foldl (· + ·) .zero := by
  have hscore : (bool all must should filter mustNot).score doc =
      if (bool all must should filter mustNot).docs.contains doc then
        (must ++ should).foldl (fun sum m => sum + m.score doc) .zero
      else .zero := rfl
  rw [hscore, if_pos h, List.foldl_map]

end Matches

/-! ### One document -/

namespace IndexedSegment

variable [PatternEngines] (s : IndexedSegment)

/-- Whether a document matches a query. No document does if the query cannot be evaluated. -/
def accepts (query : Query) (doc : Nat) : Bool :=
  match s.matching query with
  | .ok found => found.docs.contains doc
  | .error _ => false

/-- The score of a document under a query. -/
def scoreOf (query : Query) (doc : Nat) : Binary32 :=
  match s.matching query with
  | .ok found => found.score doc
  | .error _ => .zero

variable {s} {query : Query} {queries : List Query} {found : Matches}

theorem accepts_eq (h : s.matching query = .ok found) (doc : Nat) :
    s.accepts query doc = found.docs.contains doc := by
  rw [accepts, h]

theorem scoreOf_eq (h : s.matching query = .ok found) (doc : Nat) :
    s.scoreOf query doc = found.score doc := by
  rw [scoreOf, h]

theorem matchingAll_eq_mapM (s : IndexedSegment) (queries : List Query) :
    s.matchingAll queries = queries.mapM s.matching := by
  induction queries with
  | nil => rfl
  | cons query queries ih => rw [matchingAll, ih, List.mapM_cons]

/-- What the clauses of a list find, document by document. -/
theorem forall₂_of_matchingAll {all : List Matches} (h : s.matchingAll queries = .ok all) (doc : Nat) :
    List.Forall₂ (fun query m => s.accepts query doc = m.docs.contains doc ∧
      s.scoreOf query doc = m.score doc) queries all := by
  rw [matchingAll_eq_mapM, mapM_eq_ok] at h
  exact h.imp fun _ _ hfound => ⟨accepts_eq hfound doc, scoreOf_eq hfound doc⟩

/-- A property of each clause, told of its matches. -/
theorem forall_mem_of_forall₂ {all : List Matches} {doc : Nat}
    (h : List.Forall₂ (fun query m => s.accepts query doc = m.docs.contains doc ∧
      s.scoreOf query doc = m.score doc) queries all) (value : Bool) :
    (∀ m ∈ all, m.docs.contains doc = value) ↔ ∀ query ∈ queries, s.accepts query doc = value := by
  induction h with
  | nil => simp
  | cons hfirst _ ih => rw [List.forall_mem_cons, List.forall_mem_cons, ih, hfirst.1]

theorem exists_mem_of_forall₂ {all : List Matches} {doc : Nat}
    (h : List.Forall₂ (fun query m => s.accepts query doc = m.docs.contains doc ∧
      s.scoreOf query doc = m.score doc) queries all) :
    (∃ m ∈ all, m.docs.contains doc = true) ↔ ∃ query ∈ queries, s.accepts query doc = true := by
  induction h with
  | nil => simp
  | cons hfirst _ ih => rw [List.exists_mem_cons_iff, List.exists_mem_cons_iff, ih, hfirst.1]

/-! ### The reading of a Boolean node -/

section Bool

variable {must should filter mustNot : List Query}
  (hcompiles : (Query.bool must should filter mustNot).compiles = true)
include hcompiles

/-- A Boolean node that can be evaluated puts together what its clauses find. -/
theorem exists_matching_bool (s : IndexedSegment) :
    ∃ ms ss fs ns, s.matchingAll must = .ok ms ∧ s.matchingAll should = .ok ss ∧
      s.matchingAll filter = .ok fs ∧ s.matchingAll mustNot = .ok ns ∧
        s.matching (.bool must should filter mustNot) = .ok (.bool s.allDocs ms ss fs ns) := by
  simp only [Query.compiles, Bool.and_eq_true, ← exists_matchingAll_iff s] at hcompiles
  obtain ⟨⟨⟨⟨ms, hms⟩, ss, hss⟩, fs, hfs⟩, ns, hns⟩ := hcompiles
  exact ⟨ms, ss, fs, ns, hms, hss, hfs, hns, by rw [matching, hms, hss, hfs, hns]; rfl⟩

/-- **A Boolean node** has the documents that match all required clauses, or if there are none one of
the optional ones, and that match no exclusion. -/
theorem accepts_bool {doc : Nat} (hdoc : doc < s.size) :
    s.accepts (.bool must should filter mustNot) doc = true ↔
      (if must ++ filter = [] then should = [] ∨ ∃ query ∈ should, s.accepts query doc = true
        else ∀ query ∈ must ++ filter, s.accepts query doc = true) ∧
      ∀ query ∈ mustNot, s.accepts query doc = false := by
  obtain ⟨ms, ss, fs, ns, hms, hss, hfs, hns, hbool⟩ := exists_matching_bool hcompiles s
  have hm := forall₂_of_matchingAll hms doc
  have hs := forall₂_of_matchingAll hss doc
  have hf := forall₂_of_matchingAll hfs doc
  have hn := forall₂_of_matchingAll hns doc
  have hall : s.allDocs.contains doc = true := by
    rw [allDocs, DocSet.contains_below, decide_eq_true hdoc]
  rw [accepts_eq hbool, Matches.contains_bool, forall_mem_of_forall₂ hn,
    forall_mem_of_forall₂ (List.rel_append hm hf), exists_mem_of_forall₂ hs]
  refine and_congr_left fun _ => ?_
  have hrequired : ms ++ fs = [] ↔ must ++ filter = [] := by
    rw [← List.length_eq_zero_iff, ← List.length_eq_zero_iff, (List.rel_append hm hf).length_eq]
  have hoptional : ss = [] ↔ should = [] := by
    rw [← List.length_eq_zero_iff, ← List.length_eq_zero_iff, hs.length_eq]
  simp only [hrequired, hoptional, hall]
  split
  · by_cases h : should = [] <;> simp [h]
  · rfl

/-- **A Boolean node** scores what its required and its optional clauses score together. -/
theorem scoreOf_bool {doc : Nat}
    (h : s.accepts (.bool must should filter mustNot) doc = true) :
    s.scoreOf (.bool must should filter mustNot) doc =
      ((must ++ should).map (s.scoreOf · doc)).foldl (· + ·) .zero := by
  obtain ⟨ms, ss, fs, ns, hms, hss, hfs, hns, hbool⟩ := exists_matching_bool hcompiles s
  have hscores : (ms ++ ss).map (·.score doc) = (must ++ should).map (s.scoreOf · doc) := by
    have hclauses := List.rel_append (forall₂_of_matchingAll hms doc) (forall₂_of_matchingAll hss doc)
    rw [← List.forall₂_eq_eq_eq, List.forall₂_map_left_iff, List.forall₂_map_right_iff]
    exact hclauses.flip.imp fun _ _ h => h.2.symm
  rw [accepts_eq hbool] at h
  rw [scoreOf_eq hbool, Matches.score_bool h, hscores]

end Bool

end IndexedSegment

/-! ### Narrowing -/

namespace Query

/-- A query that is going to be narrowed by filters, as it is meant then: if it is a Boolean node
without required clauses then, once there is a filter, its optional clauses are not asked for. -/
def relaxedBy (filters : List Query) : Query → Query
  | bool [] should [] mustNot =>
    if filters.isEmpty then bool [] should [] mustNot else bool [] [] [] mustNot
  | q => q

/-- Whether the query is a Boolean node. -/
def isBool : Query → Bool
  | bool .. => true
  | _ => false

theorem eq_bool_of_isBool {q : Query} (h : q.isBool = true) :
    ∃ must should filter mustNot, q = bool must should filter mustNot := by
  cases q with
  | bool must should filter mustNot => exact ⟨must, should, filter, mustNot, rfl⟩
  | _ => exact absurd h Bool.false_ne_true

theorem restrict_bool (must should filter mustNot filters excludes : List Query) :
    (bool must should filter mustNot).restrict filters excludes =
      bool must should (filter ++ filters) (mustNot ++ excludes) := by
  rw [restrict]
  split
  · rename_i h
    obtain ⟨rfl, rfl⟩ : filters = [] ∧ excludes = [] := by simpa using h
    rw [List.append_nil, List.append_nil]
  · rfl

theorem restrict_of_not_isBool {q : Query} (h : q.isBool = false) {filters excludes : List Query}
    (hnone : ¬ (filters = [] ∧ excludes = [])) :
    q.restrict filters excludes = bool [q] [] filters excludes := by
  have hsome : (filters.isEmpty && excludes.isEmpty) = false := by simpa using hnone
  cases q with
  | bool => exact absurd h (by simp [isBool])
  | _ => simp [restrict, hsome]

theorem relaxedBy_of_not_isBool {q : Query} (h : q.isBool = false) (filters : List Query) :
    q.relaxedBy filters = q := by
  cases q <;> first | rfl | exact absurd h (by simp [isBool])

/-- A Boolean node that requires something stays as it is, and so does one without optional
clauses. -/
theorem relaxedBy_bool_of_ne_nil {must should filter mustNot : List Query}
    (h : must ++ filter ≠ [] ∨ should = []) (filters : List Query) :
    (bool must should filter mustNot).relaxedBy filters = bool must should filter mustNot := by
  rcases must with _ | ⟨m, must⟩ <;> rcases filter with _ | ⟨f, filter⟩ <;> first | rfl | skip
  obtain rfl : should = [] := h.resolve_left (absurd rfl)
  rw [relaxedBy]
  split <;> rfl

theorem compilesAll_append [PatternEngines] (qs rs : List Query) :
    compilesAll (qs ++ rs) = (compilesAll qs && compilesAll rs) := by
  induction qs with
  | nil => rfl
  | cons q qs ih => rw [List.cons_append, compilesAll, compilesAll, ih, Bool.and_assoc]

end Query

namespace IndexedSegment

variable {s : IndexedSegment}

/-- A query other than a Boolean node has the same score for all its matches. -/
theorem exists_uniform [PatternEngines] {q : Query} (h : q.isBool = false) {found : Matches}
    (hfound : s.matching q = .ok found) : ∃ docs, found = .uniform docs := by
  cases q with
  | wildcard field pattern =>
    rw [matching] at hfound
    split at hfound
    · exact ⟨_, (Except.ok.inj hfound).symm⟩
    · cases hfound
  | regex field pattern =>
    rw [matching] at hfound
    split at hfound
    · exact ⟨_, (Except.ok.inj hfound).symm⟩
    · cases hfound
  | bool must should filter mustNot => exact absurd h (by simp [Query.isBool])
  | _ =>
    rw [matching] at hfound
    exact ⟨_, (Except.ok.inj hfound).symm⟩

/-- A query other than a Boolean node scores 1 where it matches. -/
theorem scoreOf_eq_one [PatternEngines] {q : Query} (h : q.isBool = false) {doc : Nat}
    (hdoc : s.accepts q doc = true) :
    s.scoreOf q doc = .one := by
  rcases hfound : s.matching q with failure | found
  · rw [accepts, hfound] at hdoc
    exact absurd hdoc Bool.false_ne_true
  · obtain ⟨docs, rfl⟩ := exists_uniform h hfound
    rw [accepts_eq hfound] at hdoc
    rw [scoreOf_eq hfound]
    exact if_pos hdoc

section Restrict

variable [PatternEngines]

section Bool

variable {must should filter mustNot filters excludes : List Query}
  (hnode : (Query.bool must should filter mustNot).compiles = true)
  (hfilters : Query.compilesAll filters = true) (hexcludes : Query.compilesAll excludes = true)
include hnode hfilters hexcludes

theorem compiles_restrict_bool :
    (Query.bool must should (filter ++ filters) (mustNot ++ excludes)).compiles = true := by
  simp_all [Query.compiles, Query.compilesAll_append]

theorem accepts_restrict_bool {doc : Nat} (hdoc : doc < s.size) :
    s.accepts ((Query.bool must should filter mustNot).restrict filters excludes) doc = true ↔
      s.accepts ((Query.bool must should filter mustNot).relaxedBy filters) doc = true ∧
        (∀ f ∈ filters, s.accepts f doc = true) ∧ ∀ e ∈ excludes, s.accepts e doc = false := by
  rw [Query.restrict_bool, accepts_bool (compiles_restrict_bool hnode hfilters hexcludes) hdoc]
  by_cases hrequired : must ++ filter ≠ [] ∨ should = []
  · -- the node requires what its clauses require, and the filters besides
    have hasks : ∀ required : List Query, must ++ filter ≠ [] ∧ required ≠ [] ∨ should = [] →
        ((if required = [] then should = [] ∨ ∃ query ∈ should, s.accepts query doc = true
          else ∀ query ∈ required, s.accepts query doc = true) ↔
            ∀ query ∈ required, s.accepts query doc = true) := by
      rintro required (⟨-, hne⟩ | rfl)
      · rw [if_neg hne]
      · cases required <;> simp
    have hmore : must ++ filter ≠ [] ∧ must ++ (filter ++ filters) ≠ [] ∨ should = [] :=
      hrequired.imp_left fun hne => ⟨hne, by simp_all⟩
    rw [Query.relaxedBy_bool_of_ne_nil hrequired, accepts_bool hnode hdoc, hasks _ hmore,
      hasks _ (hrequired.imp_left fun hne => ⟨hne, hne⟩)]
    simp only [List.forall_mem_append]
    tauto
  · obtain ⟨hnothing, hshould⟩ := not_or.mp hrequired
    obtain ⟨rfl, rfl⟩ := List.append_eq_nil_iff.mp (not_not.mp hnothing)
    cases filters with
    | nil =>
      have hsame : (Query.bool [] should [] mustNot).relaxedBy [] = .bool [] should [] mustNot := rfl
      rw [hsame, accepts_bool hnode hdoc]
      simp only [List.append_nil, if_true, List.forall_mem_append, List.not_mem_nil, false_implies,
        implies_true, true_and, and_assoc]
    | cons f filters =>
      have hrelaxed : (Query.bool [] should [] mustNot).relaxedBy (f :: filters) =
          .bool [] [] [] mustNot := rfl
      have hcompiles : (Query.bool [] [] [] mustNot).compiles = true := by
        simp_all [Query.compiles, Query.compilesAll]
      rw [hrelaxed, accepts_bool hcompiles hdoc]
      simp only [List.nil_append, reduceCtorEq, if_false, if_true, true_or, true_and,
        List.forall_mem_append]
      tauto

/-- Only the clauses that are left as they are count for the score. -/
theorem scoreOf_restrict_bool {doc : Nat}
    (hquery : s.accepts (.bool must should filter mustNot) doc = true)
    (hnarrowed : s.accepts ((Query.bool must should filter mustNot).restrict filters excludes) doc =
      true) :
    s.scoreOf ((Query.bool must should filter mustNot).restrict filters excludes) doc =
      s.scoreOf (.bool must should filter mustNot) doc := by
  rw [Query.restrict_bool] at hnarrowed ⊢
  rw [scoreOf_bool (compiles_restrict_bool hnode hfilters hexcludes) hnarrowed,
    scoreOf_bool hnode hquery]

end Bool

variable {q : Query} {filters excludes : List Query} (hq : q.compiles = true)
  (hfilters : Query.compilesAll filters = true) (hexcludes : Query.compilesAll excludes = true)
include hq hfilters hexcludes

/-- **A narrowed query.** A document matches it just if it matches every filter, no exclusion, and
the query as it is meant after narrowing. It has the score that it has under the query, if it matches
that. -/
theorem accepts_restrict {doc : Nat} (hdoc : doc < s.size) :
    (s.accepts (q.restrict filters excludes) doc = true ↔
      s.accepts (q.relaxedBy filters) doc = true ∧
        (∀ f ∈ filters, s.accepts f doc = true) ∧ ∀ e ∈ excludes, s.accepts e doc = false) ∧
    (s.accepts q doc = true → s.accepts (q.restrict filters excludes) doc = true →
      s.scoreOf (q.restrict filters excludes) doc = s.scoreOf q doc) := by
  cases hkind : q.isBool with
  | true =>
    obtain ⟨must, should, filter, mustNot, rfl⟩ := Query.eq_bool_of_isBool hkind
    exact ⟨accepts_restrict_bool hq hfilters hexcludes hdoc,
      scoreOf_restrict_bool hq hfilters hexcludes⟩
  | false =>
    by_cases hnone : filters = [] ∧ excludes = []
    · obtain ⟨rfl, rfl⟩ := hnone
      have hsame : q.restrict [] [] = q := rfl
      rw [hsame, Query.relaxedBy_of_not_isBool hkind]
      simp
    · have hcompiles : (Query.bool [q] [] filters excludes).compiles = true := by
        simp [Query.compiles, Query.compilesAll, hq, hfilters, hexcludes]
      rw [Query.restrict_of_not_isBool hkind hnone, Query.relaxedBy_of_not_isBool hkind]
      refine ⟨?_, fun hquery hnarrowed => ?_⟩
      · rw [accepts_bool hcompiles hdoc]
        simp [and_assoc]
      · have hone : Binary32.zero + .one = .one := by decide +kernel
        rw [scoreOf_bool hcompiles hnarrowed]
        simpa [scoreOf_eq_one hkind hquery] using hone

end Restrict

/-- A big red document and a big blue one. -/
def paints : IndexedSegment where
  core := "paints"
  identity := ⟨1⟩
  docs :=
    #[{ id := "p1", fields := .ofList [("color", .text "red"), ("size", .text "big")] },
      { id := "p2", fields := .ofList [("color", .text "blue"), ("size", .text "big")] }]

/-- Red, by way of an optional clause that is required because nothing else is. -/
def redIfAny : Query := .bool [] [.term "color" "red"] [] []

theorem accepts_restrict_paints :
    redIfAny.compiles = true ∧ Query.compilesAll [.term "size" "big"] = true ∧
      Query.compilesAll [.term "color" "green"] = true ∧ 0 < paints.size ∧
    (paints.accepts (redIfAny.restrict [.term "size" "big"] [.term "color" "green"]) 0 = true ↔
      paints.accepts (redIfAny.relaxedBy [.term "size" "big"]) 0 = true ∧
        (∀ f ∈ [Query.term "size" "big"], paints.accepts f 0 = true) ∧
          ∀ e ∈ [Query.term "color" "green"], paints.accepts e 0 = false) ∧
    paints.accepts redIfAny 0 = true ∧
      paints.scoreOf (redIfAny.restrict [.term "size" "big"] [.term "color" "green"]) 0 =
        paints.scoreOf redIfAny 0 := by
  have hq : redIfAny.compiles = true := by decide +kernel
  have hfilters : Query.compilesAll [.term "size" "big"] = true := by decide +kernel
  have hexcludes : Query.compilesAll [.term "color" "green"] = true := by decide +kernel
  have hdoc : 0 < paints.size := by decide +kernel
  obtain ⟨hiff, hscore⟩ := accepts_restrict hq hfilters hexcludes hdoc
  have hred : paints.accepts redIfAny 0 = true := by decide +kernel
  exact ⟨hq, hfilters, hexcludes, hdoc, hiff, hred, hscore hred (by decide +kernel)⟩

/-- **Narrowing is not always what is meant**: a filter can let in documents that do not match the
query, here the blue one. -/
theorem not_accepts_restrict :
    ¬ ∀ (s : IndexedSegment) (q : Query) (filters excludes : List Query) (doc : Nat),
      q.compiles = true → Query.compilesAll filters = true → Query.compilesAll excludes = true →
        doc < s.size →
          (s.accepts (q.restrict filters excludes) doc = true ↔
            s.accepts q doc = true ∧ (∀ f ∈ filters, s.accepts f doc = true) ∧
              ∀ e ∈ excludes, s.accepts e doc = false) := by
  intro hlaw
  have hnarrowed : paints.accepts (redIfAny.restrict [.term "size" "big"] []) 1 = true := by
    decide +kernel
  have hblue : paints.accepts redIfAny 1 = false := by decide +kernel
  have hred := ((hlaw paints redIfAny [.term "size" "big"] [] 1 (by decide +kernel)
    (by decide +kernel) (by decide +kernel) (by decide +kernel)).mp hnarrowed).1
  rw [hblue] at hred
  exact Bool.false_ne_true hred

end IndexedSegment

end FederatedSearch
