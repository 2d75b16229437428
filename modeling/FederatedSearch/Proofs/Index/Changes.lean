import FederatedSearch.Proofs.Index.Visits
import FederatedSearch.Proofs.Session

/-!
# A core as a list of documents

Seen from outside, a core of documents is a list: what is added goes to its end, a deletion takes out
all documents with an identifier, and merging segments does not show. The segments, the numbers of the
documents in them, the marks of the deleted ones and the postings are only how the list is kept.

Searching goes through the list as well. The documents that a search visits, segment by segment, are
the documents of the list that match the query, in the order of the list and with the scores that they
have on their own.

## Main definitions

* `CoreChange`, `DocumentCore.apply`, `DocumentCore.applyAll` — changes of a core
* `CoreChange.read`, `CoreChange.readAll` — what they mean for the list
* `DocumentCore.liveDocuments` — the list that a core keeps
* `DocumentCore.visited` — what a search goes through

## Main results

* `DocumentCore.liveDocuments_apply` — one change
* `DocumentCore.visited_eq` — the documents that are visited in a core
* `DocumentCore.applyAll_refines` — any number of changes
-/

namespace FederatedSearch

/-! ### The documents of a segment -/

theorem DocSet.contains_foldl_insert (docs : List Nat) (s : DocSet) (i : Nat) :
    (docs.foldl insert s).contains i = true ↔ s.contains i = true ∨ i ∈ docs := by
  induction docs generalizing s with
  | nil => simp
  | cons doc docs ih =>
    rw [List.foldl_cons, ih, contains_insert, Bool.or_eq_true, decide_eq_true_eq, List.mem_cons,
      or_assoc, @eq_comm _ i doc]

namespace IndexedSegment

variable (s : IndexedSegment)

/-- No documents are marked as deleted but those of the segment. -/
def MarksOwn : Prop := ∀ doc, s.deleted.contains doc = true → doc < s.size

theorem marksOwn_create (core : String) (docs : List Document) (source : IdentitySource) :
    (create core docs source).1.MarksOwn := by
  intro doc h
  have hempty : (create core docs source).1.deleted.contains doc = false := DocSet.contains_empty doc
  rw [hempty] at h
  exact nomatch h

theorem liveDocuments_create (core : String) (docs : List Document) (source : IdentitySource) :
    (create core docs source).1.liveDocuments = docs := by
  show (docs.toArray.toList.zipIdx.filter fun e => !DocSet.empty.contains e.2).map (·.1) = docs
  simp

theorem mem_liveWithId {id : String} {i : Nat} :
    i ∈ s.liveWithId id ↔
      ∃ d, s.docs.toList[i]? = some d ∧ d.id = id ∧ s.deleted.contains i = false := by
  rw [liveWithId, List.mem_map]
  constructor
  · rintro ⟨⟨d, i⟩, hmem, rfl⟩
    obtain ⟨hmem, hlive⟩ := List.mem_filter.mp hmem
    simp only [Bool.and_eq_true, decide_eq_true_eq, Bool.not_eq_true'] at hlive
    exact ⟨d, List.mem_zipIdx_iff_getElem?.mp hmem, hlive⟩
  · rintro ⟨d, hget, hid, hlive⟩
    refine ⟨(d, i), List.mem_filter.mpr ⟨List.mem_zipIdx_iff_getElem?.mpr hget, ?_⟩, rfl⟩
    simp [hid, hlive]

theorem length_liveWithId (id : String) :
    (s.liveWithId id).length = s.liveDocuments.countP (·.id = id) := by
  rw [liveWithId, List.length_map, liveDocuments, List.countP_map, List.countP_filter,
    List.countP_eq_length_filter]
  rfl

/-- The segment with more documents marked as deleted. -/
theorem liveDocuments_mark (id : String) (identity : Identity) :
    ({ s with identity, deleted := (s.liveWithId id).foldl .insert s.deleted } :
      IndexedSegment).liveDocuments = s.liveDocuments.filter (·.id ≠ id) := by
  show (s.docs.toList.zipIdx.filter fun e =>
    !((s.liveWithId id).foldl DocSet.insert s.deleted).contains e.2).map (·.1) = _
  rw [liveDocuments, List.filter_map, List.filter_filter]
  refine congrArg _ (List.filter_congr fun e hmem => ?_)
  obtain ⟨d, i⟩ := e
  have hget := List.mem_zipIdx_iff_getElem?.mp hmem
  have hmark : ((s.liveWithId id).foldl DocSet.insert s.deleted).contains i = true ↔
      s.deleted.contains i = true ∨ d.id = id ∧ s.deleted.contains i = false := by
    rw [DocSet.contains_foldl_insert, mem_liveWithId]
    simp [hget]
  rw [Bool.eq_iff_iff, Bool.not_eq_true', ← Bool.not_eq_true, hmark]
  rcases hlive : s.deleted.contains i with _ | _ <;> simp [hlive]

/-- **Deleting** takes the documents with the identifier out, and says how many there were. -/
theorem delete_eq (id : String) (source : IdentitySource) :
    (s.delete id source).1.1.liveDocuments = s.liveDocuments.filter (·.id ≠ id) ∧
      (s.delete id source).1.2 = s.liveDocuments.countP (·.id = id) := by
  rw [delete]
  split
  · rename_i hempty
    have hcount : s.liveDocuments.countP (·.id = id) = 0 := by
      rw [← length_liveWithId, List.isEmpty_iff.mp hempty, List.length_nil]
    refine ⟨(List.filter_eq_self.mpr fun d hmem => ?_).symm, hcount.symm⟩
    have hne := List.countP_eq_zero.mp hcount d hmem
    simpa using hne
  · exact ⟨s.liveDocuments_mark id _, s.length_liveWithId id⟩

theorem MarksOwn.delete {s : IndexedSegment} (h : s.MarksOwn) (id : String) (source : IdentitySource) :
    (s.delete id source).1.1.MarksOwn := by
  rw [IndexedSegment.delete]
  split
  · exact h
  · intro doc hdoc
    rcases (DocSet.contains_foldl_insert _ _ _).mp hdoc with hdoc | hdoc
    · exact h doc hdoc
    · obtain ⟨d, hget, -⟩ := s.mem_liveWithId.mp hdoc
      exact (List.getElem?_eq_some_iff.mp hget).1

/-- No more documents are deleted than there are. -/
theorem MarksOwn.count_le {s : IndexedSegment} (h : s.MarksOwn) (bound : Nat) :
    s.deleted.count bound ≤ s.size := by
  have hsubset : s.deleted.toList bound ⊆ List.range s.size := fun doc hmem =>
    List.mem_range.mpr (h doc (DocSet.mem_toList.mp hmem).2)
  have hnodup : (s.deleted.toList bound).Nodup := List.nodup_range.filter _
  have hle := (List.subperm_of_subset hnodup hsubset).length_le
  rwa [List.length_range] at hle

/-- The live documents and the deleted ones are all there are. -/
theorem liveCount_add_count : s.liveCount + s.deleted.count s.size = s.size := by
  have hle : s.deleted.count s.size ≤ s.size := by
    rw [DocSet.count, DocSet.toList]
    simpa using List.length_filter_le s.deleted.contains (List.range s.size)
  rw [liveCount]
  omega

theorem liveCount_eq_length : s.liveCount = s.liveDocuments.length := by
  have hlive : s.liveDocuments.length = (List.range s.size).countP fun i => !s.deleted.contains i := by
    rw [liveDocuments, List.length_map, ← List.countP_eq_length_filter, ← map_snd_zipIdx,
      List.countP_map]
    rfl
  have hdeleted : s.deleted.count s.size = (List.range s.size).countP s.deleted.contains := by
    rw [DocSet.count, DocSet.toList, List.countP_eq_length_filter]
  have hall := List.length_eq_countP_add_countP s.deleted.contains (l := List.range s.size)
  rw [List.length_range] at hall
  have hsum := s.liveCount_add_count
  simp only [Bool.not_eq_true, Bool.decide_eq_false] at hall
  omega

end IndexedSegment

/-! ### Changes -/

/-- A change of a core. -/
inductive CoreChange where
  | add (docs : List Document)
  | delete (id : String)
  | merge

namespace CoreChange

/-- What the change makes of a list of documents, and how many it takes out. -/
def read : CoreChange → List Document → List Document × Nat
  | add docs, all => (all ++ docs, 0)
  | delete id, all => (all.filter (·.id ≠ id), all.countP (·.id = id))
  | merge, all => (all, 0)

/-- What the changes make of a list of documents, and how many each of them takes out. -/
def readAll : List CoreChange → List Document → List Document × List Nat
  | [], all => (all, [])
  | change :: changes, all =>
    ((readAll changes (change.read all).1).1,
      (change.read all).2 :: (readAll changes (change.read all).1).2)

end CoreChange

namespace DocumentCore

variable (c : DocumentCore)

/-- The documents of the core that are not deleted, segment by segment. -/
def liveDocuments : List Document := c.segments.flatMap (·.liveDocuments)

/-- The documents that a search visits, segment by segment, with their scores. -/
def visited [PatternEngines] (query : Query) (scored : Bool) : Except Failure
    (List (Document × Binary32)) := do
  return (← c.segments.mapM (·.visited query scored)).flatten

/-- Make a change, and say how many documents it has removed. -/
def apply : CoreChange → Minting (DocumentCore × Nat)
  | .add docs => do return (← c.addSegment docs, 0)
  | .delete id => c.delete id
  | .merge => do return (← c.mergeSegments, 0)

/-- Make changes one after the other. -/
def applyAll (c : DocumentCore) : List CoreChange → Minting (DocumentCore × List Nat)
  | [] => return (c, [])
  | change :: changes => do
    let (c, count) ← c.apply change
    let (c, counts) ← c.applyAll changes
    return (c, count :: counts)

/-! ### One change -/

theorem forall₂_delete (id : String) (segments : List IndexedSegment) (source : IdentitySource) :
    List.Forall₂ (fun s r => ∃ source', r = (s.delete id source').1) segments
      (segments.mapM (·.delete id) source).1 := by
  induction segments generalizing source with
  | nil => exact .nil
  | cons s segments ih =>
    rw [List.mapM_cons]
    exact .cons ⟨source, rfl⟩ (ih _)

theorem exists_delete_of_mem {id : String} {segments : List IndexedSegment} {source : IdentitySource}
    {r : IndexedSegment × Nat} (h : r ∈ (segments.mapM (·.delete id) source).1) :
    ∃ s ∈ segments, ∃ source', r = (s.delete id source').1 := by
  have hall := forall₂_delete id segments source
  generalize (segments.mapM (·.delete id) source).1 = results at h hall
  induction hall with
  | nil => exact absurd h List.not_mem_nil
  | cons hr _ ih =>
    rcases List.mem_cons.mp h with rfl | h
    · exact ⟨_, List.mem_cons_self, hr⟩
    · obtain ⟨s, hs, hr⟩ := ih h
      exact ⟨s, List.mem_cons_of_mem _ hs, hr⟩

theorem liveDocuments_delete (id : String) (source : IdentitySource) :
    (c.delete id source).1.1.liveDocuments = c.liveDocuments.filter (·.id ≠ id) ∧
      (c.delete id source).1.2 = c.liveDocuments.countP (·.id = id) := by
  have hall : ∀ {segments : List IndexedSegment} {results : List (IndexedSegment × Nat)},
      List.Forall₂ (fun s r => ∃ source', r = (s.delete id source').1) segments results → ∀ n,
        (results.map (·.1)).flatMap (·.liveDocuments) =
            (segments.flatMap (·.liveDocuments)).filter (·.id ≠ id) ∧
          results.foldl (fun count r => count + r.2) n =
            n + (segments.flatMap (·.liveDocuments)).countP (·.id = id) := by
    intro segments results h
    induction h with
    | nil => exact fun n => ⟨rfl, rfl⟩
    | @cons s r segments results hr _ ih =>
      intro n
      obtain ⟨source', rfl⟩ := hr
      obtain ⟨hdocs, hcount⟩ := s.delete_eq id source'
      obtain ⟨hrest, hsum⟩ := ih (n + (s.delete id source').1.2)
      refine ⟨?_, ?_⟩
      · rw [List.map_cons, List.flatMap_cons, List.flatMap_cons, List.filter_append, hdocs, hrest]
      · rw [List.foldl_cons, hsum, hcount, List.flatMap_cons, List.countP_append, Nat.add_assoc]
  obtain ⟨hdocs, hcount⟩ := hall (forall₂_delete id c.segments source) 0
  exact ⟨hdocs, hcount.trans (Nat.zero_add _)⟩

theorem liveDocuments_addSegment (docs : List Document) (source : IdentitySource) :
    (c.addSegment docs source).1.liveDocuments = c.liveDocuments ++ docs := by
  show (c.segments ++ [(IndexedSegment.create c.name docs source).1]).flatMap (·.liveDocuments) = _
  rw [List.flatMap_append, List.flatMap_singleton, IndexedSegment.liveDocuments_create]
  rfl

theorem liveDocuments_mergeSegments (source : IdentitySource) :
    (c.mergeSegments source).1.liveDocuments = c.liveDocuments := by
  rw [mergeSegments]
  split
  · rfl
  · show [(IndexedSegment.create c.name _ source).1].flatMap (·.liveDocuments) = _
    rw [List.flatMap_singleton, IndexedSegment.liveDocuments_create]
    rfl

/-- **One change** does to the documents of a core what it means for the list. -/
theorem liveDocuments_apply (change : CoreChange) (source : IdentitySource) :
    ((c.apply change source).1.1.liveDocuments, (c.apply change source).1.2) =
      change.read c.liveDocuments := by
  cases change with
  | add docs => exact Prod.ext (c.liveDocuments_addSegment docs source) rfl
  | delete id => exact Prod.ext (c.liveDocuments_delete id source).1 (c.liveDocuments_delete id source).2
  | merge => exact Prod.ext (c.liveDocuments_mergeSegments source) rfl

variable {c}

/-- A change marks documents of their own segments only. -/
theorem marksOwn_apply (h : ∀ s ∈ c.segments, s.MarksOwn) (change : CoreChange)
    (source : IdentitySource) : ∀ s ∈ (c.apply change source).1.1.segments, s.MarksOwn := by
  cases change with
  | add docs =>
    show ∀ s ∈ c.segments ++ [(IndexedSegment.create c.name docs source).1], s.MarksOwn
    exact List.forall_mem_append.mpr
      ⟨h, List.forall_mem_singleton.mpr (IndexedSegment.marksOwn_create c.name docs source)⟩
  | delete id =>
    intro s hmem
    obtain ⟨r, hr, rfl⟩ := List.mem_map.mp hmem
    obtain ⟨old, hold, source', rfl⟩ := exists_delete_of_mem hr
    exact (h old hold).delete id source'
  | merge =>
    show ∀ s ∈ (c.mergeSegments source).1.segments, s.MarksOwn
    rw [mergeSegments]
    split
    · exact h
    · exact List.forall_mem_singleton.mpr (IndexedSegment.marksOwn_create c.name _ source)

/-- A change gives out new identities only. -/
theorem published_apply {catalog : Catalog} {source : IdentitySource} (hcovers : catalog.Covers source)
    (hlists : ∀ s ∈ c.segments, catalog.Lists (.indexed s)) (change : CoreChange) :
    Published catalog (c.apply change source).1.1.segments (c.apply change source).2 := by
  cases change with
  | add docs => exact published_addSegment hcovers hlists docs
  | delete id => exact published_delete hcovers id hlists
  | merge => exact published_mergeSegments hcovers hlists

/-- A search visits the documents of the core that match, in order and with their scores. -/
theorem visited_eq [PatternEngines] (c : DocumentCore) {query : Query} (h : query.compiles = true)
    (scored : Bool) :
    c.visited query scored = .ok ((c.liveDocuments.filter (·.satisfies query)).map fun d =>
      (d, if scored then d.score query else .zero)) := by
  have hsegments : ∀ s ∈ c.segments, s.visited query scored =
      (pure ((s.liveDocuments.filter (·.satisfies query)).map fun d =>
        (d, if scored then d.score query else .zero)) : Except Failure _) := fun s _ => s.visited_eq h scored
  rw [visited, mapM_congr hsegments, List.mapM_pure, pure_bind, liveDocuments, ← List.flatMap_def,
    List.filter_flatMap, List.map_flatMap]
  rfl

/-! ### Any number of changes -/

/-- What the changes so far have made is what the others start from. -/
theorem applyAll_append (c : DocumentCore) (done more : List CoreChange) (source : IdentitySource) :
    (c.applyAll (done ++ more) source).1.1 =
      ((c.applyAll done source).1.1.applyAll more (c.applyAll done source).2).1.1 := by
  induction done generalizing c source with
  | nil => rfl
  | cons change done ih => exact ih (c.apply change source).1.1 (c.apply change source).2

theorem liveDocuments_applyAll (c : DocumentCore) (changes : List CoreChange) (source : IdentitySource) :
    ((c.applyAll changes source).1.1.liveDocuments, (c.applyAll changes source).1.2) =
      CoreChange.readAll changes c.liveDocuments := by
  induction changes generalizing c source with
  | nil => rfl
  | cons change changes ih =>
    have hchange := c.liveDocuments_apply change source
    have hrest := ih (c.apply change source).1.1 (c.apply change source).2
    rw [CoreChange.readAll, ← hchange, ← hrest]
    rfl

theorem marksOwn_applyAll {c : DocumentCore} (h : ∀ s ∈ c.segments, s.MarksOwn)
    (changes : List CoreChange) (source : IdentitySource) :
    ∀ s ∈ (c.applyAll changes source).1.1.segments, s.MarksOwn := by
  induction changes generalizing c source with
  | nil => exact h
  | cons change changes ih => exact ih (marksOwn_apply h change source) (c.apply change source).2

theorem published_applyAll {c : DocumentCore} {catalog : Catalog} {source : IdentitySource}
    (hcovers : catalog.Covers source) (hlists : ∀ s ∈ c.segments, catalog.Lists (.indexed s))
    (changes : List CoreChange) :
    Published catalog (c.applyAll changes source).1.1.segments (c.applyAll changes source).2 := by
  induction changes generalizing c catalog source with
  | nil => exact ⟨catalog, .refl _, hcovers, hlists⟩
  | cons change changes ih =>
    obtain ⟨larger, hext, hcovers', hlists'⟩ := published_apply hcovers hlists change
    obtain ⟨largest, hext', hlast⟩ := ih hcovers' hlists'
    exact ⟨largest, hext.trans hext', hlast⟩

/-- **Identities** are not given to two segments, now or later. -/
theorem eq_of_identity_eq (name : String) (source : IdentitySource) (done more : List CoreChange)
    {s s' : IndexedSegment}
    (hs : s ∈ (applyAll { name } done source).1.1.segments)
    (hs' : s' ∈ (applyAll { name } (done ++ more) source).1.1.segments)
    (h : s.identity = s'.identity) : s = s' := by
  have hcovers : Catalog.Covers (fun _ => none) source := nofun
  have hlists : ∀ s ∈ ({ name } : DocumentCore).segments, Catalog.Lists (fun _ => none) (.indexed s) :=
    nofun
  obtain ⟨catalog, -, hcovers', hdone⟩ := published_applyAll hcovers hlists done
  obtain ⟨larger, hext, -, hmore⟩ := published_applyAll hcovers' hdone more
  rw [applyAll_append] at hs'
  have hfirst : larger s.identity = some (.indexed s) := hext.lists (hdone s hs)
  have hsecond : larger s'.identity = some (.indexed s') := hmore s' hs'
  rw [h, hsecond] at hfirst
  exact (Segment.indexed.inj (Option.some.inj hfirst)).symm

/-- **A core is a list of documents.** However a core has been changed, its documents are those that
the changes leave in a list: added ones at the end, without those that were deleted, and as they were
where segments were merged; and each deletion has said how many documents it took out. A search visits
just the documents of that list that match, in the order of the list and with the scores that they have
on their own, so that merging segments does not show. No more documents of a segment are deleted than
it has, and no identity has ever stood for two segments. -/
theorem applyAll_refines [PatternEngines] (name : String) (source : IdentitySource)
    (changes : List CoreChange) :
    let after := fun done => (applyAll { name } done source).1
    let list := (CoreChange.readAll changes []).1
    (after changes).1.liveDocuments = list ∧
      (after changes).2 = (CoreChange.readAll changes []).2 ∧
      (∀ query scored, query.compiles = true →
        (after changes).1.visited query scored = .ok ((list.filter (·.satisfies query)).map fun d =>
            (d, if scored then d.score query else .zero)) ∧
          (after (changes ++ [.merge])).1.visited query scored =
            (after changes).1.visited query scored) ∧
      (∀ s ∈ (after changes).1.segments,
        (∀ bound, s.deleted.count bound ≤ s.size) ∧
          s.liveCount + s.deleted.count s.size = s.size ∧
          s.liveCount = s.liveDocuments.length) ∧
      ∀ done done', done <+: changes → done' <+: changes →
        ∀ s ∈ (after done).1.segments, ∀ s' ∈ (after done').1.segments,
          s.identity = s'.identity → s = s' := by
  intro after list
  have hlive : ∀ done, ((after done).1.liveDocuments, (after done).2) = CoreChange.readAll done [] :=
    fun done => liveDocuments_applyAll { name } done source
  have hlist : (after changes).1.liveDocuments = list := congrArg Prod.fst (hlive changes)
  refine ⟨hlist, congrArg Prod.snd (hlive changes), ?_, ?_, ?_⟩
  · intro query scored hcompiles
    have hmerge : (after (changes ++ [.merge])).1.liveDocuments = (after changes).1.liveDocuments := by
      show (applyAll { name } (changes ++ [.merge]) source).1.1.liveDocuments = _
      rw [applyAll_append]
      exact liveDocuments_mergeSegments _ _
    rw [visited_eq _ hcompiles, visited_eq _ hcompiles, hmerge, hlist]
    exact ⟨rfl, rfl⟩
  · intro s hs
    have hmarks : s.MarksOwn := marksOwn_applyAll (c := { name }) nofun changes source s hs
    exact ⟨hmarks.count_le, s.liveCount_add_count, s.liveCount_eq_length⟩
  · intro done done' hdone hdone' s hs s' hs' h
    rcases List.prefix_or_prefix_of_prefix hdone hdone' with ⟨more, rfl⟩ | ⟨more, rfl⟩
    · exact eq_of_identity_eq name source done more hs hs' h
    · exact (eq_of_identity_eq name source done' more hs' hs h.symm).symm

/-- A red document and a blue one, then another red one in a segment of its own; the first is deleted
and comes back in blue, and the segments are merged. -/
def repainting : List CoreChange :=
  [.add [{ id := "p1", fields := .ofList [("color", .text "red")] },
      { id := "p2", fields := .ofList [("color", .text "blue")] }],
    .add [{ id := "p3", fields := .ofList [("color", .text "red")] }],
    .delete "p1",
    .add [{ id := "p1", fields := .ofList [("color", .text "blue")] }],
    .merge]

theorem applyAll_refines_repainting :
    (Query.term "color" "blue").compiles = true ∧
      (applyAll { name := "paints" } repainting {}).1.2 = [0, 0, 1, 0, 0] ∧
      (applyAll { name := "paints" } repainting {}).1.1.visited (.term "color" "blue") true =
        .ok [({ id := "p2", fields := .ofList [("color", .text "blue")] }, .one),
          ({ id := "p1", fields := .ofList [("color", .text "blue")] }, .one)] := by
  have hcompiles : (Query.term "color" "blue").compiles = true := by decide +kernel
  obtain ⟨-, hcounts, hvisited, -⟩ := applyAll_refines "paints" {} repainting
  refine ⟨hcompiles, hcounts.trans (by decide +kernel), ?_⟩
  exact (hvisited (.term "color" "blue") true hcompiles).1.trans (congrArg Except.ok (by decide +kernel))

end DocumentCore

end FederatedSearch
