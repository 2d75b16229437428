import FederatedSearch.Proofs.Index.Search
import FederatedSearch.Proofs.Query.Satisfies
import FederatedSearch.Proofs.Search.Offers
import FederatedSearch.Proofs.Sort.Order

/-!
# The key of a match

What a match is sorted by, told from documents: a clause has the text, the integer or the number that a
document has in a field, or its score. The document is that of the match itself, or the one in another
core that its join key leads to. Where there is no value or no such document, a text is missing and a
number is the one that the clause puts in its place.

The keys that are read in a search are these, and they can be read just if the segment that has the
document is not damaged.

## Main definitions

* `SortReading.Makes` — the key of a value, or of no value
* `Offer.LeadsTo` — the document of another core that a match leads to
* `SortClause.IsKey` — the key of a match under a clause

## Main results

* `SortClause.key_eq_ok` — the key that is read under a clause
* `sortKeys_eq_ok` — the keys that are read under a list of clauses
-/

namespace FederatedSearch

/-! ### The key of a value -/

/-- The key that a reading makes of a value, or of none, in a match with a score. -/
inductive SortReading.Makes (score : Binary32) : SortReading → Option FieldValue → SortKey → Prop
  | text (v : FieldValue) : Makes score .text (some v) (.text (some v.form))
  | missingText : Makes score .text none (.text none)
  | int {missing n : Int64} {v : FieldValue} (h : v.toInt? = some n) :
      Makes score (.int missing) (some v) (.int n)
  | missingInt {missing : Int64} {value : Option FieldValue} (h : ∀ v ∈ value, v.toInt? = none) :
      Makes score (.int missing) value (.int missing)
  | double {missing x : Binary64} {v : FieldValue} (h : v.toDouble? = some x) :
      Makes score (.double missing) (some v) (.double x)
  | missingDouble {missing : Binary64} {value : Option FieldValue}
      (h : ∀ v ∈ value, v.toDouble? = none) : Makes score (.double missing) value (.double missing)
  | score (value : Option FieldValue) : Makes score .score value (.double score.toDouble)

/-- A document of the segment has the value in the field; no value where there is no document. -/
inductive Segment.Holds (field : String) (doc : Nat) : Segment → Option FieldValue → Prop
  | document {s : IndexedSegment} {d : Document} (h : s.docs[doc]? = some d) :
      Holds field doc (.indexed s) (d.field? field)
  | beyond {s : IndexedSegment} (h : s.docs[doc]? = none) : Holds field doc (.indexed s) none

/-- The key that a reading makes of a document. The segment need not be looked at for the score. -/
inductive SortReading.MakesOf (r : SortReading) (field : String) (segment : Segment) (doc : Nat)
    (score : Binary32) : SortKey → Prop
  | value {value : Option FieldValue} {key : SortKey} (hvalue : segment.Holds field doc value)
      (hkey : r.Makes score value key) : MakesOf r field segment doc score key
  | score (h : r = .score) : MakesOf r field segment doc score (.double score.toDouble)

/-! ### The key of a match -/

/-- The match has a join key in the field, the table has a number for it, and in the other core this is
the number of document `doc` of `related`. -/
def Offer.LeadsTo (e : Offer) (field : String) (table : DocTable) (other : Snapshot) (related : Placed)
    (doc : Nat) : Prop :=
  ∃ s d number, e.1.segment = .indexed s ∧ s.docs[e.2.doc]? = some d ∧ d.joinKey field ≠ noKey ∧
    table.get? (d.joinKey field) = some number ∧ other.locate number = some (related, doc)

/-- The key of a match under a clause. -/
inductive SortClause.IsKey (c : SortClause) (e : Offer) : SortKey → Prop
  | own {key : SortKey} (hsource : c.source = .own)
      (hkey : c.reading.MakesOf c.field e.1.segment e.2.doc e.2.score key) : IsKey c e key
  | related {field : String} {table : DocTable} {other : Snapshot} {related : Placed} {doc : Nat}
      {key : SortKey} (hsource : c.source = .related field table other)
      (hleads : e.LeadsTo field table other related doc)
      (hkey : c.reading.MakesOf c.field related.segment doc .zero key) : IsKey c e key
  | unrelated {field : String} {table : DocTable} {other : Snapshot} {key : SortKey}
      (hsource : c.source = .related field table other)
      (hleads : ∀ related doc, ¬ e.LeadsTo field table other related doc)
      (hkey : c.reading.Makes .zero none key) : IsKey c e key

/-! ### Keys that are read -/

namespace SortReading

variable {r : SortReading} {score : Binary32} {value : Option FieldValue} {key : SortKey}

theorem makes_keyOf (r : SortReading) (score : Binary32) (value : Option FieldValue) :
    r.Makes score value (r.keyOf score value) := by
  cases r with
  | text =>
    cases value with
    | none => exact .missingText
    | some v => exact .text v
  | int missing =>
    rcases hn : value.bind (·.toInt?) with _ | n
    · rw [keyOf, hn]
      exact .missingInt fun v hv => by simpa [Option.mem_def.mp hv] using hn
    · obtain ⟨v, rfl, hv⟩ := Option.bind_eq_some_iff.mp hn
      rw [keyOf, hn]
      exact .int hv
  | double missing =>
    rcases hx : value.bind (·.toDouble?) with _ | x
    · rw [keyOf, hx]
      exact .missingDouble fun v hv => by simpa [Option.mem_def.mp hv] using hx
    · obtain ⟨v, rfl, hv⟩ := Option.bind_eq_some_iff.mp hx
      rw [keyOf, hx]
      exact .double hv
  | score => exact .score value

theorem Makes.unique {other : SortKey} (h : r.Makes score value key)
    (hother : r.Makes score value other) :
    key = other := by
  cases h <;> cases hother <;> simp_all

theorem makes_iff : r.Makes score value key ↔ r.keyOf score value = key :=
  ⟨fun h => (r.makes_keyOf score value).unique h, fun h => h ▸ r.makes_keyOf score value⟩

theorem makes_none_iff : r.Makes .zero none key ↔ r.missingKey = key := by
  rw [makes_iff]
  cases r <;> rfl

theorem Makes.admits (h : r.Makes score value key) : r.Admits key := by
  cases h <;> trivial

theorem MakesOf.admits {field : String} {segment : Segment} {doc : Nat}
    (h : r.MakesOf field segment doc score key) : r.Admits key := by
  cases h with
  | value _ hkey => exact hkey.admits
  | score h =>
    subst h
    trivial

end SortReading

theorem Segment.value_eq_ok {segment : Segment} {field : String} {doc : Nat}
    {value : Option FieldValue} :
    segment.value field doc = .ok value ↔ segment.Holds field doc value := by
  constructor
  · intro h
    cases segment with
    | damaged s => exact absurd h error_ne_ok
    | indexed s =>
      obtain rfl := Except.ok.inj h
      rcases hget : s.docs[doc]? with _ | d
      · rw [IndexedSegment.value, hget]
        exact .beyond hget
      · rw [IndexedSegment.value, hget]
        exact .document hget
  · rintro (h | h) <;> rw [Segment.value, IndexedSegment.value, h] <;> rfl

namespace SortReading

theorem read_eq_ok {r : SortReading} {field : String} {segment : Segment} {hit : Hit} {key : SortKey} :
    r.read field segment hit = .ok key ↔ r.MakesOf field segment hit.doc hit.score key := by
  have hread : r ≠ .score → (r.read field segment hit = .ok key ↔
      ∃ value, segment.value field hit.doc = .ok value ∧ r.keyOf hit.score value = key) := by
    intro hne
    have heq : r.read field segment hit = (segment.value field hit.doc).map (r.keyOf hit.score) := by
      cases r <;> first | rfl | exact absurd rfl hne
    rw [heq]
    rcases segment.value field hit.doc with failure | value <;> simp [Except.map]
  constructor
  · intro h
    by_cases hscore : r = .score
    · subst hscore
      exact Except.ok.inj h ▸ .score rfl
    · obtain ⟨value, hvalue, hkey⟩ := (hread hscore).mp h
      exact .value (Segment.value_eq_ok.mp hvalue) (makes_iff.mpr hkey)
  · intro h
    by_cases hscore : r = .score
    · subst hscore
      rcases h with ⟨-, hkey⟩ | -
      · cases hkey
        rfl
      · rfl
    · rcases h with ⟨hvalue, hkey⟩ | hscore'
      · exact (hread hscore).mpr ⟨_, Segment.value_eq_ok.mpr hvalue, makes_iff.mp hkey⟩
      · exact absurd hscore' hscore

end SortReading

/-- No column of a damaged segment has any keys. -/
theorem Segment.column_damaged (s : DamagedSegment) : Segment.column (.damaged s) = fun _ => #[] := by
  funext field
  have hread : Segment.joinKeys field (.damaged s) = List.toArray <$>
      (List.range s.size).mapM fun _ => (.error s.failure : Except Failure JoinKey) := by
    rw [joinKeys, Array.mapM_eq_mapM_toList, Array.toList_range]
    rfl
  rw [column, hread]
  cases s.size with
  | zero => rfl
  | succ n =>
    rw [List.range_succ_eq_map, List.mapM_cons]
    rfl

/-- The join key of a match is that of its document. -/
theorem Offer.exists_of_key_ne {e : Offer} {field : String} (h : e.key field ≠ noKey) :
    ∃ s d, e.1.segment = .indexed s ∧ s.docs[e.2.doc]? = some d ∧ d.joinKey field = e.key field := by
  rw [Offer.key, Bound.key, Bound.of] at h ⊢
  rcases hs : e.1.segment with s | s
  · simp only [hs, IndexedSegment.key_column] at h ⊢
    rcases hget : s.docs[e.2.doc]? with _ | d
    · rw [IndexedSegment.joinKey, hget] at h
      exact absurd rfl h
    · exact ⟨s, d, rfl, hget, (IndexedSegment.joinKey_of_getElem? hget field).symm⟩
  · simp only [hs, Segment.column_damaged] at h
    exact absurd rfl h

namespace SortClause

variable {c : SortClause} {e : Offer} {key : SortKey}

theorem leadsTo_iff {field : String} {table : DocTable} {other : Snapshot} {related : Placed}
    {doc : Nat} :
    e.LeadsTo field table other related doc ↔ e.key field ≠ noKey ∧
      (table.get? (e.key field)).bind other.locate = some (related, doc) := by
  rw [Option.bind_eq_some_iff]
  constructor
  · rintro ⟨s, d, number, hs, hget, hne, hnumber, hlocate⟩
    have hkey : e.key field = d.joinKey field := by
      rw [Offer.key, Bound.key, Bound.of, hs, IndexedSegment.key_column,
        IndexedSegment.joinKey_of_getElem? hget]
    rw [hkey]
    exact ⟨hne, number, hnumber, hlocate⟩
  · rintro ⟨hne, number, hnumber, hlocate⟩
    obtain ⟨s, d, hs, hget, hkey⟩ := Offer.exists_of_key_ne hne
    exact ⟨s, d, number, hs, hget, hkey ▸ hne, hkey ▸ hnumber, hlocate⟩

/-- **The key that is read** under a clause. -/
theorem key_eq_ok : c.key (.of e.1) e.1 e.2 = .ok key ↔ c.IsKey e key := by
  rcases hsource : c.source with _ | ⟨field, table, other⟩
  · rw [SortClause.key, hsource]
    refine SortReading.read_eq_ok.trans ⟨.own hsource, fun h => ?_⟩
    cases h with
    | own _ hkey => exact hkey
    | related hother | unrelated hother => cases hsource.symm.trans hother
  · have hunrelated : (∀ related doc, ¬ e.LeadsTo field table other related doc) →
        ((.ok c.reading.missingKey : Except Failure SortKey) = .ok key ↔ c.IsKey e key) := by
      intro hnone
      rw [Except.ok.injEq, ← SortReading.makes_none_iff]
      refine ⟨.unrelated hsource hnone, fun h => ?_⟩
      cases h with
      | own hother => cases hsource.symm.trans hother
      | related hother hleads =>
        cases hsource.symm.trans hother
        exact absurd hleads (hnone _ _)
      | unrelated _ _ hkey => exact hkey
    rw [SortClause.key, hsource]
    show (if e.key field = noKey then _ else _) = _ ↔ _
    split
    · rename_i hkey
      exact hunrelated fun related doc h => (leadsTo_iff.mp h).1 hkey
    · rename_i hkey
      split
      · rename_i related doc hlocate
        have hleads : e.LeadsTo field table other related doc := leadsTo_iff.mpr ⟨hkey, hlocate⟩
        refine SortReading.read_eq_ok.trans ⟨.related hsource hleads, fun h => ?_⟩
        cases h with
        | own hother => cases hsource.symm.trans hother
        | related hother hleads' hmade =>
          cases hsource.symm.trans hother
          cases hlocate.symm.trans (leadsTo_iff.mp hleads').2
          exact hmade
        | unrelated hother hnone =>
          cases hsource.symm.trans hother
          exact absurd hleads (hnone _ _)
      · rename_i hlocate
        refine hunrelated fun related doc h => ?_
        cases hlocate.symm.trans (leadsTo_iff.mp h).2

theorem IsKey.admits (h : c.IsKey e key) : c.reading.Admits key := by
  cases h with
  | own _ hkey | related _ _ hkey => exact hkey.admits
  | unrelated _ _ hkey => exact hkey.admits

end SortClause

theorem sortKeys_eq_ok {clauses : List SortClause} {e : Offer} {keys : List SortKey} :
    sortKeys clauses (.of e.1) e.2 = .ok keys ↔
      List.Forall₂ (fun c key => c.IsKey e key) clauses keys := by
  have hmap : sortKeys clauses (.of e.1) e.2 = clauses.mapM fun c => c.key (.of e.1) e.1 e.2 := rfl
  rw [hmap, mapM_eq_ok]
  simp only [SortClause.key_eq_ok]

end FederatedSearch
