import FederatedSearch.Proofs.NameMap
import FederatedSearch.Proofs.Query.Restrict

/-!
# Queries on one document

A segment evaluates a query bottom-up to sets of documents, with the help of postings. What comes out
for a document depends on nothing but the document: not on its number, nor on the other documents of
the segment. `Document.satisfies` and `Document.score` are the reading of a query on a single document,
and a segment that can evaluate the query agrees with them.

## Main definitions

* `FieldValue.IsWithin` — a value reads as an integer between two bounds
* `Document.satisfies`, `Document.score` — whether a document matches a query, and its score

## Main results

* `Postings.contains_lookup_ofDocuments` — postings list the documents that have a text form in a field
* `IndexedSegment.reads_document` — a segment makes of a document what the document alone tells
-/

namespace FederatedSearch

/-! ### The reading of a query -/

namespace FieldValue

/-- The value reads as an integer from `least` to `greatest`, where a bound that is not given bounds
nothing. -/
def IsWithin (least greatest : Option Int64) (v : FieldValue) : Prop :=
  ∃ n ∈ v.toInt?, (∀ lo ∈ least, lo.toInt ≤ n.toInt) ∧ ∀ hi ∈ greatest, n.toInt ≤ hi.toInt

instance (least greatest : Option Int64) (v : FieldValue) : Decidable (v.IsWithin least greatest) :=
  inferInstanceAs (Decidable (∃ n ∈ v.toInt?, _))

end FieldValue

namespace Document

variable (d : Document)

/-- Whether the document has a value with a property in a field. -/
def hasValue (field : String) (property : FieldValue → Bool) : Bool := (d.field? field).any property

variable [PatternEngines]

mutual

/-- Whether the document matches a query. A pattern that cannot be compiled matches nothing. -/
def satisfies : Query → Bool
  | .all => true
  | .term field form => d.hasValue field (·.form = form)
  | .range field least greatest => d.hasValue field fun v => decide (v.IsWithin least greatest)
  | .present field => d.hasValue field fun _ => true
  | .wildcard field pattern =>
    match PatternEngines.wildcard pattern with
    | .ok describes => d.hasValue field fun v => describes v.form
    | .error _ => false
  | .regex field pattern =>
    match PatternEngines.regex pattern with
    | .ok finds => d.hasValue field fun v => finds v.form
    | .error _ => false
  | .bool must should filter mustNot =>
    (if must.isEmpty && filter.isEmpty then should.isEmpty || satisfiesSome should
      else satisfiesEach must && satisfiesEach filter) && !satisfiesSome mustNot
  | .joinKeys field keys => keys.contains (d.joinKey field)

def satisfiesEach : List Query → Bool
  | [] => true
  | q :: qs => satisfies q && satisfiesEach qs

def satisfiesSome : List Query → Bool
  | [] => false
  | q :: qs => satisfies q || satisfiesSome qs

end

mutual

/-- The score of the document under a query: the sum over the clauses that score, or 1 for a leaf, and
0 if the document does not match. -/
def score : Query → Binary32
  | .bool must should filter mustNot =>
    if d.satisfies (.bool must should filter mustNot) then
      (scores must ++ scores should).foldl (· + ·) .zero
    else .zero
  | q => if d.satisfies q then .one else .zero

def scores : List Query → List Binary32
  | [] => []
  | q :: qs => score q :: scores qs

end

variable {d}

theorem satisfiesEach_iff {qs : List Query} :
    d.satisfiesEach qs = true ↔ ∀ q ∈ qs, d.satisfies q = true := by
  induction qs with
  | nil => simp [satisfiesEach]
  | cons q qs ih => rw [satisfiesEach, Bool.and_eq_true, ih, List.forall_mem_cons]

theorem satisfiesSome_iff {qs : List Query} :
    d.satisfiesSome qs = true ↔ ∃ q ∈ qs, d.satisfies q = true := by
  induction qs with
  | nil => simp [satisfiesSome]
  | cons q qs ih => rw [satisfiesSome, Bool.or_eq_true, ih, List.exists_mem_cons_iff]

theorem scores_eq_map (qs : List Query) : d.scores qs = qs.map d.score := by
  induction qs with
  | nil => rfl
  | cons q qs ih => rw [scores, ih, List.map_cons]

/-- A Boolean node, clause by clause. -/
theorem satisfies_bool {must should filter mustNot : List Query} :
    d.satisfies (.bool must should filter mustNot) = true ↔
      (if must ++ filter = [] then should = [] ∨ ∃ q ∈ should, d.satisfies q = true
        else ∀ q ∈ must ++ filter, d.satisfies q = true) ∧
      ∀ q ∈ mustNot, d.satisfies q = false := by
  have hnone : (!d.satisfiesSome mustNot) = true ↔ ∀ q ∈ mustNot, d.satisfies q = false := by
    rw [Bool.not_eq_true', ← Bool.not_eq_true, satisfiesSome_iff]
    simp
  rw [satisfies, Bool.and_eq_true, hnone]
  refine and_congr_left fun _ => ?_
  by_cases hrequired : must = [] ∧ filter = []
  · obtain ⟨rfl, rfl⟩ := hrequired
    simp [satisfiesSome_iff]
  · rw [if_neg (by simpa using hrequired), if_neg (by simpa using hrequired), Bool.and_eq_true,
      satisfiesEach_iff, satisfiesEach_iff, List.forall_mem_append]

end Document

/-! ### Postings -/

namespace Postings

theorem contains_lookup_add (p : Postings) (field form field' form' : String) (doc i : Nat) :
    ((p.add field form doc).lookup field' form').contains i = true ↔
      (p.lookup field' form').contains i = true ∨ field = field' ∧ form = form' ∧ doc = i := by
  rw [lookup, lookup, add, NameMap.find?_update]
  by_cases hfield : field = field'
  · subst hfield
    rw [if_pos rfl, Option.bind_some, NameMap.find?_update]
    by_cases hform : form = form'
    · subst hform
      rw [if_pos rfl]
      rcases p.fields.find? field with _ | forms
      · simp
      · simp
    · rw [if_neg hform]
      rcases p.fields.find? field with _ | forms <;> simp [hform]
  · rw [if_neg hfield]
    simp [hfield]

theorem contains_lookup_addDocument (p : Postings) (d : Document) (field form : String) (doc i : Nat) :
    ((p.addDocument doc d).lookup field form).contains i = true ↔
      (p.lookup field form).contains i = true ∨ d.hasValue field (·.form = form) = true ∧ doc = i := by
  have hloop : ∀ (entries : List (String × FieldValue)) (p : Postings),
      ((entries.foldl (fun p e => p.add e.1 e.2.form doc) p).lookup field form).contains i = true ↔
        (p.lookup field form).contains i = true ∨
          (∃ value, (field, value) ∈ entries ∧ value.form = form) ∧ doc = i := by
    intro entries
    induction entries with
    | nil => simp
    | cons e entries ih =>
      intro p
      rw [List.foldl_cons, ih, contains_lookup_add]
      constructor
      · rintro ((hp | ⟨rfl, rfl, rfl⟩) | ⟨⟨value, hmem, hform⟩, rfl⟩)
        · exact .inl hp
        · exact .inr ⟨⟨e.2, List.mem_cons_self, rfl⟩, rfl⟩
        · exact .inr ⟨⟨value, List.mem_cons_of_mem _ hmem, hform⟩, rfl⟩
      · rintro (hp | ⟨⟨value, hmem, rfl⟩, rfl⟩)
        · exact .inl (.inl hp)
        · rcases List.mem_cons.mp hmem with rfl | hmem
          · exact .inl (.inr ⟨rfl, rfl, rfl⟩)
          · exact .inr ⟨⟨value, hmem, rfl⟩, rfl⟩
  rw [addDocument, hloop, Document.hasValue, Option.any_eq_true]
  simp only [NameMap.mem_entries_iff, Document.field?, decide_eq_true_eq]

/-- **Postings** list the documents that have a text form in a field. -/
theorem contains_lookup_ofDocuments (docs : List Document) (field form : String) (i : Nat) :
    ((ofDocuments docs).lookup field form).contains i = true ↔
      ∃ d, docs[i]? = some d ∧ d.hasValue field (·.form = form) = true := by
  have hloop : ∀ (numbered : List (Document × Nat)) (p : Postings),
      ((numbered.foldl (fun p e => p.addDocument e.2 e.1) p).lookup field form).contains i = true ↔
        (p.lookup field form).contains i = true ∨
          ∃ d, (d, i) ∈ numbered ∧ d.hasValue field (·.form = form) = true := by
    intro numbered
    induction numbered with
    | nil => simp
    | cons e numbered ih =>
      intro p
      obtain ⟨d, doc⟩ := e
      rw [List.foldl_cons, ih, contains_lookup_addDocument]
      constructor
      · rintro ((hp | ⟨hvalue, rfl⟩) | ⟨other, hmem, hvalue⟩)
        · exact .inl hp
        · exact .inr ⟨d, List.mem_cons_self, hvalue⟩
        · exact .inr ⟨other, List.mem_cons_of_mem _ hmem, hvalue⟩
      · rintro (hp | ⟨other, hmem, hvalue⟩)
        · exact .inl (.inl hp)
        · rcases List.mem_cons.mp hmem with heq | hmem
          · obtain ⟨rfl, rfl⟩ := Prod.mk.inj heq
            exact .inl (.inr ⟨hvalue, rfl⟩)
          · exact .inr ⟨other, hmem, hvalue⟩
  have hempty : (empty.lookup field form).contains i = false := DocSet.contains_empty i
  have hdocs : ofDocuments docs = docs.zipIdx.foldl (fun p e => p.addDocument e.2 e.1) empty := rfl
  rw [hdocs, hloop, hempty]
  simp only [Bool.false_eq_true, false_or, List.mem_zipIdx_iff_getElem?]

end Postings

/-! ### Segments -/

namespace IndexedSegment

variable {s : IndexedSegment} {i : Nat}

/-- A document that does not match scores 0. -/
theorem scoreOf_eq_zero [PatternEngines] {q : Query} (h : s.accepts q i = false) :
    s.scoreOf q i = .zero := by
  rcases hfound : s.matching q with failure | found
  · rw [scoreOf, hfound]
  · rw [accepts_eq hfound] at h
    rw [scoreOf_eq hfound]
    cases hkind : q.isBool with
    | false =>
      obtain ⟨docs, rfl⟩ := exists_uniform hkind hfound
      exact if_neg (Bool.not_eq_true _ ▸ h)
    | true =>
      obtain ⟨must, should, filter, mustNot, rfl⟩ := Query.eq_bool_of_isBool hkind
      obtain ⟨ms, ss, fs, ns, -, -, -, -, hbool⟩ :=
        exists_matching_bool ((exists_matching_iff s _).mp ⟨found, hfound⟩) s
      rw [← Except.ok.inj (hbool.symm.trans hfound)] at h ⊢
      exact if_neg (Bool.not_eq_true _ ▸ h)

variable {d : Document}

section Leaf

variable (hget : s.docs[i]? = some d)
include hget

theorem lt_size_of_getElem? : i < s.size := (Array.getElem?_eq_some_iff.mp hget).1

theorem contains_scan (field : String) (property : FieldValue → Bool) :
    (s.scan field property).contains i = d.hasValue field property := by
  rw [scan, DocSet.contains_filterBelow, decide_eq_true (lt_size_of_getElem? hget), Bool.true_and,
    value, hget]
  rfl

theorem contains_postings (field form : String) :
    (s.postings.lookup field form).contains i = d.hasValue field (·.form = form) := by
  rw [Bool.eq_iff_iff, s.postings_eq, Postings.contains_lookup_ofDocuments, Array.getElem?_toList, hget]
  simp

theorem joinKey_of_getElem? (field : String) : s.joinKey field i = d.joinKey field := by
  rw [joinKey, hget]

end Leaf

/-- The test of a segment for a range holds of the values within the bounds. -/
theorem inBounds_eq (least greatest : Option Int64) :
    inBounds least greatest = fun v => decide (v.IsWithin least greatest) := by
  funext v
  rw [Bool.eq_iff_iff, decide_eq_true_iff, inBounds, FieldValue.IsWithin, Option.any_eq_true]
  refine exists_congr fun n => and_congr_right fun _ => ?_
  rw [Bool.and_eq_true, Option.all_eq_true, Option.all_eq_true]
  simp only [decide_eq_true_eq, Int64.le_iff_toInt_le, Option.mem_def]

variable [PatternEngines]

/-- A leaf, by the set that it is evaluated to. -/
theorem reads_leaf {q : Query} {docs : DocSet} (hmatching : s.matching q = .ok (.uniform docs))
    (hdocs : docs.contains i = d.satisfies q)
    (hscore : d.score q = if d.satisfies q then .one else .zero) :
    s.accepts q i = d.satisfies q ∧ s.scoreOf q i = d.score q := by
  rw [accepts_eq hmatching, scoreOf_eq hmatching, hscore, ← hdocs]
  exact ⟨rfl, rfl⟩

/-- A Boolean node, by what its clauses come to. -/
theorem reads_bool (hdoc : i < s.size) {must should filter mustNot : List Query}
    (h : (Query.bool must should filter mustNot).compiles = true)
    (hclauses : ∀ q ∈ must ++ should ++ filter ++ mustNot,
      s.accepts q i = d.satisfies q ∧ s.scoreOf q i = d.score q) :
    s.accepts (.bool must should filter mustNot) i = d.satisfies (.bool must should filter mustNot) ∧
      s.scoreOf (.bool must should filter mustNot) i = d.score (.bool must should filter mustNot) := by
  simp only [List.forall_mem_append] at hclauses
  obtain ⟨⟨⟨hmust, hshould⟩, hfilter⟩, hmustNot⟩ := hclauses
  have hrequired : (∀ q ∈ must ++ filter, s.accepts q i = true) ↔
      ∀ q ∈ must ++ filter, d.satisfies q = true :=
    forall₂_congr fun q hq => by
      rw [(List.mem_append.mp hq).elim (fun h => (hmust q h).1) fun h => (hfilter q h).1]
  have hoptional : (∃ q ∈ should, s.accepts q i = true) ↔ ∃ q ∈ should, d.satisfies q = true :=
    exists_congr fun q => and_congr_right fun hq => by rw [(hshould q hq).1]
  have hexcluded : (∀ q ∈ mustNot, s.accepts q i = false) ↔ ∀ q ∈ mustNot, d.satisfies q = false :=
    forall₂_congr fun q hq => by rw [(hmustNot q hq).1]
  have haccepts : s.accepts (.bool must should filter mustNot) i =
      d.satisfies (.bool must should filter mustNot) := by
    rw [Bool.eq_iff_iff, accepts_bool h hdoc, Document.satisfies_bool, hrequired, hoptional, hexcluded]
  have hscores : (must ++ should).map (s.scoreOf · i) = d.scores must ++ d.scores should := by
    rw [Document.scores_eq_map, Document.scores_eq_map, ← List.map_append]
    exact List.map_congr_left fun q hq =>
      (List.mem_append.mp hq).elim (fun h => (hmust q h).2) fun h => (hshould q h).2
  refine ⟨haccepts, ?_⟩
  rw [Document.score, ← haccepts]
  split
  · rename_i hmatch
    rw [scoreOf_bool h hmatch, hscores]
  · rename_i hmatch
    exact scoreOf_eq_zero (Bool.eq_false_iff.mpr hmatch)

mutual

/-- **A segment** makes of a document what the document alone tells. -/
theorem reads_document (hget : s.docs[i]? = some d) : ∀ {q : Query}, q.compiles = true →
    s.accepts q i = d.satisfies q ∧ s.scoreOf q i = d.score q
  | .all, _ => by
    refine reads_leaf (by rw [matching]) ?_ rfl
    rw [allDocs, DocSet.contains_below, decide_eq_true (lt_size_of_getElem? hget)]
    rfl
  | .term field form, _ => reads_leaf (by rw [matching]) (contains_postings hget field form) rfl
  | .range field least greatest, _ =>
    reads_leaf (by rw [matching, inBounds_eq]) (contains_scan hget field _) rfl
  | .present field, _ => reads_leaf (by rw [matching]) (contains_scan hget field _) rfl
  | .wildcard field pattern, h => by
    rcases hp : PatternEngines.wildcard pattern with report | describes
    · simp [Query.compiles, hp, Except.toOption] at h
    · refine reads_leaf (by rw [matching, hp]) ?_ rfl
      rw [contains_scan hget, Document.satisfies, hp]
  | .regex field pattern, h => by
    rcases hp : PatternEngines.regex pattern with report | finds
    · simp [Query.compiles, hp, Except.toOption] at h
    · refine reads_leaf (by rw [matching, hp]) ?_ rfl
      rw [contains_scan hget, Document.satisfies, hp]
  | .joinKeys field keys, _ => by
    refine reads_leaf (by rw [matching]) ?_ rfl
    rw [DocSet.contains_filterBelow, decide_eq_true (lt_size_of_getElem? hget), Bool.true_and,
      joinKey_of_getElem? hget]
    rfl
  | .bool must should filter mustNot, h => by
    refine reads_bool (lt_size_of_getElem? hget) h ?_
    simp only [Query.compiles, Bool.and_eq_true] at h
    simp only [List.forall_mem_append]
    exact ⟨⟨⟨reads_document_all hget h.1.1.1, reads_document_all hget h.1.1.2⟩,
      reads_document_all hget h.1.2⟩, reads_document_all hget h.2⟩

theorem reads_document_all (hget : s.docs[i]? = some d) :
    ∀ {qs : List Query}, Query.compilesAll qs = true →
      ∀ q ∈ qs, s.accepts q i = d.satisfies q ∧ s.scoreOf q i = d.score q
  | [], _ => nofun
  | q :: qs, h => by
    rw [Query.compilesAll, Bool.and_eq_true] at h
    exact List.forall_mem_cons.mpr ⟨reads_document hget h.1, reads_document_all hget h.2⟩

end

end IndexedSegment

end FederatedSearch
