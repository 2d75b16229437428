import FederatedSearch.Proofs.Index.Changes

/-!
# What merging leaves of a core

Merging puts the live documents of all segments into one new segment, in the order they had, and of the
new segment nothing is deleted. So deleted documents go away for good, but only where something is
merged: a core with a single segment is left alone, whatever is deleted in it.

How many segments there are, and which of them have deleted documents, depends on all changes that a
core has seen. What merging does depends on no more than these two.

## Main definitions

* `IndexedSegment.IsCompact` — a segment with live documents only

## Main results

* `IndexedSegment.isCompact_iff` — the same by numbers of documents
* `DocumentCore.mergeSegments_cases` — all that merging can do
* `DocumentCore.mergeSegments_compacts` — merging, after any changes
-/

namespace FederatedSearch

namespace IndexedSegment

variable (s : IndexedSegment)

/-- All documents of the segment are live. -/
def IsCompact : Prop := s.docs.toList = s.liveDocuments

theorem liveDocuments_sublist : s.liveDocuments.Sublist s.docs.toList := by
  have hall : s.docs.toList.zipIdx.map (·.1) = s.docs.toList := List.zipIdx_map_fst 0 _
  have hlive : s.liveDocuments.Sublist (s.docs.toList.zipIdx.map (·.1)) := List.filter_sublist.map _
  rwa [hall] at hlive

/-- A segment is compact just if as many of its documents are live as there are. -/
theorem isCompact_iff : s.IsCompact ↔ s.liveCount = s.size := by
  have hsize : s.docs.toList.length = s.size := Array.length_toList
  rw [liveCount_eq_length, ← hsize]
  constructor
  · intro h
    rw [← h]
  · intro h
    exact (s.liveDocuments_sublist.eq_of_length h).symm

/-- A new segment is compact. -/
theorem isCompact_create (core : String) (docs : List Document) (source : IdentitySource) :
    (create core docs source).1.IsCompact := by
  rw [IsCompact, liveDocuments_create]
  rfl

end IndexedSegment

namespace DocumentCore

variable (c : DocumentCore) (source : IdentitySource)

/-- **All that merging can do.** Of several segments it makes a new one with the live documents. A core
that has just one, or none, stays as it is. -/
theorem mergeSegments_cases :
    (c.segments.length < 2 ∧ (c.mergeSegments source).1 = c) ∨
    (2 ≤ c.segments.length ∧ ∃ s, (c.mergeSegments source).1.segments = [s] ∧ s.IsCompact ∧
      s.docs.toList = c.liveDocuments) := by
  rw [mergeSegments]
  split
  · rename_i hfew
    exact .inl ⟨hfew, rfl⟩
  · rename_i hseveral
    exact .inr ⟨Nat.not_lt.mp hseveral, _, rfl, IndexedSegment.isCompact_create c.name _ source, rfl⟩

variable {c source}

theorem isCompact_mergeSegments_iff :
    (∀ s ∈ (c.mergeSegments source).1.segments, s.IsCompact) ↔
      2 ≤ c.segments.length ∨ ∀ s ∈ c.segments, s.IsCompact := by
  rcases c.mergeSegments_cases source with ⟨hfew, hsame⟩ | ⟨hseveral, s, hmerged, hcompact, -⟩
  · rw [hsame]
    exact (or_iff_right (Nat.not_le.mpr hfew)).symm
  · rw [hmerged]
    exact iff_of_true (List.forall_mem_singleton.mpr hcompact) (.inl hseveral)

theorem length_mergeSegments_le : (c.mergeSegments source).1.segments.length ≤ 1 := by
  rcases c.mergeSegments_cases source with ⟨hfew, hsame⟩ | ⟨-, s, hmerged, -⟩
  · rw [hsame]
    omega
  · rw [hmerged]
    exact Nat.le_refl 1

variable (c source)

/-- **Merging, after any changes.** There is at most one segment then, and the live documents are in the
order they had. If there were several segments, the one that is left has just these documents. A core with
fewer is left as it is, so its documents are all live only if they were before. -/
theorem mergeSegments_compacts (name : String) (changes : List CoreChange) :
    let before := (applyAll { name } changes source).1.1
    let merged := (applyAll { name } (changes ++ [.merge]) source).1.1
    merged.segments.length ≤ 1 ∧
      merged.liveDocuments = before.liveDocuments ∧
      ((before.segments.length < 2 ∧ merged = before) ∨
        (2 ≤ before.segments.length ∧ ∃ s, merged.segments = [s] ∧ s.liveCount = s.size ∧
          s.docs.toList = before.liveDocuments)) ∧
      ((∀ s ∈ merged.segments, s.liveCount = s.size) ↔
        2 ≤ before.segments.length ∨ ∀ s ∈ before.segments, s.liveCount = s.size) := by
  intro before merged
  obtain ⟨source', hmerged⟩ : ∃ source', merged = (before.mergeSegments source').1 :=
    ⟨(applyAll { name } changes source).2, applyAll_append _ changes [.merge] source⟩
  rw [hmerged]
  refine ⟨length_mergeSegments_le, liveDocuments_mergeSegments before source', ?_, ?_⟩
  · refine (before.mergeSegments_cases source').imp_right (And.imp_right ?_)
    rintro ⟨s, hone, hcompact, hdocs⟩
    exact ⟨s, hone, s.isCompact_iff.mp hcompact, hdocs⟩
  · simp only [← IndexedSegment.isCompact_iff]
    exact isCompact_mergeSegments_iff

/-- Two books come, and the first one goes. -/
def withdrawing : List CoreChange := [.add [{ id := "a1" }, { id := "a2" }], .delete "a1"]

/-- With another segment beside, though an empty one, merging leaves the book that has stayed. -/
theorem mergeSegments_compacts_withdrawn :
    let merged := (applyAll { name := "books" } ((withdrawing ++ [.add []]) ++ [.merge]) {}).1.1
    ∃ s, merged.segments = [s] ∧ s.liveCount = s.size ∧ s.docs.toList = [{ id := "a2" }] := by
  intro merged
  have hseveral : (applyAll { name := "books" } (withdrawing ++ [.add []]) {}).1.1.segments.length = 2 := by
    decide +kernel
  have hlive : (applyAll { name := "books" } (withdrawing ++ [.add []]) {}).1.1.liveDocuments =
      [{ id := "a2" }] := by
    decide +kernel
  obtain ⟨-, -, hcases, -⟩ := mergeSegments_compacts {} "books" (withdrawing ++ [.add []])
  rcases hcases with ⟨hfew, -⟩ | ⟨-, s, hone, hcount, hdocs⟩
  · omega
  · exact ⟨s, hone, hcount, hdocs.trans hlive⟩

/-- A core need not be compact after merging: the only segment still has the book that has gone. -/
theorem not_mergeSegments_compact :
    ¬ ∀ (source : IdentitySource) (name : String) (changes : List CoreChange),
      let merged := (applyAll { name } (changes ++ [.merge]) source).1.1
      merged.segments.length ≤ 1 ∧ ∀ s ∈ merged.segments, s.liveCount = s.size := by
  intro h
  have hgone : ¬ ∀ s ∈ (applyAll { name := "books" } (withdrawing ++ [.merge]) {}).1.1.segments,
      s.liveCount = s.size := by
    decide +kernel
  exact hgone (h {} "books" withdrawing).2

end DocumentCore

end FederatedSearch
