import FederatedSearch.Proofs.Index.Search
import Mathlib.Algebra.Ring.Nat

/-!
# Numbers of documents in a snapshot

The documents of a snapshot are numbered through its segments. Each segment has the numbers from its
base on, as many as it has documents, and these ranges do not meet, however many segments are empty.
So the number of a document tells the segment that it is in and its number there.

Empty segments share their base with the segment behind them. The segments that start at a document or
before it are still the first ones, and the last of these is the one that has it, so it may be found by
bisection.

## Main results

* `getElem?_placeFrom` — the place of each segment
* `lt_length_takeWhile_placeFrom` — the segments that start at a document or before it
* `Snapshot.locate_of_lt` — a number leads back to its document
* `Snapshot.exists_placed` — each segment has its place and its numbers
* `Snapshot.locate_eq_none` — beyond the last document there is none
* `Snapshot.eq_of_number_eq` — different documents have different numbers
-/

namespace FederatedSearch

theorem base_le_of_mem_placeFrom {placed : Placed} {segments : List Segment} {ord base : Nat}
    (h : placed ∈ placeFrom ord base segments) : base ≤ placed.base := by
  induction segments generalizing ord base with
  | nil => exact absurd h List.not_mem_nil
  | cons s segments ih =>
    rw [placeFrom] at h
    rcases List.mem_cons.mp h with rfl | h
    · exact Nat.le_refl _
    · have hrest := ih h
      omega

theorem end_le_of_mem_placeFrom {placed : Placed} {segments : List Segment} {ord base : Nat}
    (h : placed ∈ placeFrom ord base segments) :
    placed.base + placed.segment.size ≤ base + (segments.map (·.size)).sum := by
  induction segments generalizing ord base with
  | nil => exact absurd h List.not_mem_nil
  | cons s segments ih =>
    rw [placeFrom] at h
    rw [List.map_cons, List.sum_cons]
    rcases List.mem_cons.mp h with rfl | h
    · show base + s.size ≤ _
      omega
    · have hrest := ih h
      omega

/-- A segment is placed behind the documents of the segments before it. -/
theorem getElem?_placeFrom (segments : List Segment) (ord base i : Nat) :
    (placeFrom ord base segments)[i]? = segments[i]?.map fun segment =>
      ⟨ord + i, base + ((segments.take i).map (·.size)).sum, segment⟩ := by
  induction segments generalizing ord base i with
  | nil => rfl
  | cons s segments ih =>
    rw [placeFrom]
    cases i with
    | zero => rfl
    | succ i =>
      rw [List.getElem?_cons_succ, List.getElem?_cons_succ, ih, List.take_succ_cons, List.map_cons,
        List.sum_cons, Nat.add_assoc, Nat.add_assoc, Nat.add_comm 1 i]

/-- **The segments that start at a document or before it** are the first ones, as many as there are. -/
theorem lt_length_takeWhile_placeFrom {segments : List Segment} {ord base i : Nat} {placed : Placed}
    (h : (placeFrom ord base segments)[i]? = some placed) (doc : Nat) :
    i < ((placeFrom ord base segments).takeWhile (·.base ≤ doc)).length ↔ placed.base ≤ doc := by
  induction segments generalizing ord base i with
  | nil => exact nomatch h
  | cons s segments ih =>
    have hbase := base_le_of_mem_placeFrom (List.mem_of_getElem? h)
    rw [placeFrom] at h ⊢
    by_cases hfirst : base ≤ doc
    · rw [List.takeWhile_cons_of_pos (by simpa using hfirst), List.length_cons]
      cases i with
      | zero =>
        obtain rfl := Option.some.inj h
        exact iff_of_true (Nat.succ_pos _) hfirst
      | succ i =>
        rw [Nat.add_lt_add_iff_right]
        exact ih h
    · rw [List.takeWhile_cons_of_neg (by simpa using hfirst)]
      exact iff_of_false (Nat.not_lt_zero i) fun hdoc => hfirst (Nat.le_trans hbase hdoc)

/-- The numbers of a segment end where those of the later ones begin, or before. -/
theorem pairwise_placeFrom (segments : List Segment) (ord base : Nat) :
    (placeFrom ord base segments).Pairwise fun a b => a.base + a.segment.size ≤ b.base := by
  induction segments generalizing ord base with
  | nil => exact .nil
  | cons s segments ih => exact .cons (fun _ hmem => base_le_of_mem_placeFrom hmem) (ih _ _)

/-- Among the segments that start at a document or before it, the one that has it is the last. -/
theorem getLast?_takeWhile_placeFrom {placed : Placed} {segments : List Segment} {ord base doc : Nat}
    (hmem : placed ∈ placeFrom ord base segments) (hdoc : doc < placed.segment.size) :
    ((placeFrom ord base segments).takeWhile (·.base ≤ placed.base + doc)).getLast? = some placed := by
  induction segments generalizing ord base with
  | nil => exact absurd hmem List.not_mem_nil
  | cons s segments ih =>
    have hfirst : base ≤ placed.base + doc := by
      have hbase := base_le_of_mem_placeFrom hmem
      omega
    rw [placeFrom] at hmem ⊢
    rw [List.takeWhile_cons_of_pos (by simpa using hfirst), List.getLast?_cons]
    rcases List.mem_cons.mp hmem with rfl | hmem
    · -- the segments behind it start beyond the document
      have hrest : (placeFrom (ord + 1) (base + s.size) segments).takeWhile
          (·.base ≤ base + doc) = [] := by
        rcases hplaces : placeFrom (ord + 1) (base + s.size) segments with _ | ⟨next, places⟩
        · rfl
        · have hnext : base + s.size ≤ next.base :=
            base_le_of_mem_placeFrom (hplaces ▸ List.mem_cons_self)
          have hlt : doc < s.size := hdoc
          refine List.takeWhile_cons_of_neg ?_
          simp only [decide_eq_true_eq]
          omega
      show some (((placeFrom _ _ segments).takeWhile (·.base ≤ base + doc)).getLast?.getD _) = _
      rw [hrest]
      rfl
    · rw [ih hmem]
      rfl

namespace Snapshot

variable {core : String} {segments : List Segment}

/-- A number leads to a segment of the snapshot. -/
theorem mem_of_locate {snapshot : Snapshot} {doc number : Nat} {placed : Placed}
    (h : snapshot.locate doc = some (placed, number)) : placed ∈ snapshot.segments := by
  obtain ⟨last, hlast, h⟩ := Option.bind_eq_some_iff.mp h
  obtain ⟨-, heq⟩ := Option.ite_none_right_eq_some.mp h
  obtain ⟨rfl, -⟩ := Prod.mk.inj (Option.some.inj heq)
  exact (List.takeWhile_prefix _).mem (List.mem_of_getLast? hlast)

/-- A segment stands where its place says. -/
theorem getElem?_ord {placed : Placed} (hmem : placed ∈ (ofSegments core segments).segments) :
    (ofSegments core segments).segments[placed.ord]? = some placed := by
  obtain ⟨i, hi⟩ := List.getElem?_of_mem hmem
  have hplace := (getElem?_placeFrom segments 0 0 i).symm.trans hi
  obtain ⟨segment, -, rfl⟩ := Option.map_eq_some_iff.mp hplace
  exact (congrArg ((ofSegments core segments).segments[·]?) (Nat.zero_add i)).trans hi

/-- **A number leads back** to its document. -/
theorem locate_of_lt {placed : Placed} (hmem : placed ∈ (ofSegments core segments).segments)
    {doc : Nat} (hdoc : doc < placed.segment.size) :
    (ofSegments core segments).locate (placed.base + doc) = some (placed, doc) := by
  have hlast := getLast?_takeWhile_placeFrom hmem hdoc
  have hsub : placed.base + doc - placed.base = doc := Nat.add_sub_cancel_left _ _
  show (((placeFrom 0 0 segments).takeWhile (·.base ≤ placed.base + doc)).getLast? >>= _) = _
  rw [hlast]
  show (if placed.base + doc - placed.base < placed.segment.size then _ else _) = _
  rw [hsub, if_pos hdoc]

/-- The place of a segment, and the numbers that it has. -/
theorem exists_placed (hsize : (segments.map (·.size)).sum < 2 ^ 32) {i : Nat} {segment : Segment}
    (hsegment : segments[i]? = some segment) :
    ∃ placed, (ofSegments core segments).segments[i]? = some placed ∧ placed.ord = i ∧
      placed.segment = segment ∧ ∀ doc < segment.size,
        (ofSegments core segments).locate (placed.base + doc) = some (placed, doc) ∧
          placed.base + doc + 1 < 2 ^ 32 := by
  obtain ⟨placed, hplaced, hord, rfl⟩ : ∃ placed,
      (ofSegments core segments).segments[i]? = some placed ∧ placed.ord = i ∧
        placed.segment = segment := by
    have hplace := getElem?_placeFrom segments 0 0 i
    rw [hsegment] at hplace
    exact ⟨_, hplace, Nat.zero_add i, rfl⟩
  have hmem := List.mem_of_getElem? hplaced
  have hend := end_le_of_mem_placeFrom hmem
  refine ⟨placed, hplaced, hord, rfl, fun doc hdoc => ⟨locate_of_lt hmem hdoc, ?_⟩⟩
  omega

/-- **Beyond the last document** a number leads nowhere. -/
theorem locate_eq_none {number : Nat} (h : (segments.map (·.size)).sum ≤ number) :
    (ofSegments core segments).locate number = none := by
  rcases hlocate : (ofSegments core segments).locate number with _ | ⟨placed, doc⟩
  · rfl
  · have hend := end_le_of_mem_placeFrom (mem_of_locate hlocate)
    obtain ⟨last, -, hlast⟩ := Option.bind_eq_some_iff.mp hlocate
    obtain ⟨hlt, heq⟩ := Option.ite_none_right_eq_some.mp hlast
    obtain ⟨rfl, -⟩ := Prod.mk.inj (Option.some.inj heq)
    omega

theorem stored_of_lt {placed : Placed} (hmem : placed ∈ (ofSegments core segments).segments)
    {doc : Nat} (hdoc : doc < placed.segment.size) :
    (ofSegments core segments).stored (placed.base + doc) = placed.segment.stored doc := by
  rw [stored, locate_of_lt hmem hdoc]

/-- **Different documents** have different numbers. -/
theorem eq_of_number_eq {placed other : Placed}
    (hplaced : placed ∈ (ofSegments core segments).segments)
    (hother : other ∈ (ofSegments core segments).segments) {doc doc' : Nat}
    (hdoc : doc < placed.segment.size) (hdoc' : doc' < other.segment.size)
    (h : placed.base + doc = other.base + doc') : placed = other ∧ doc = doc' := by
  have hlocate := locate_of_lt hplaced hdoc
  rw [h, locate_of_lt hother hdoc'] at hlocate
  obtain ⟨heq, heq'⟩ := Prod.mk.inj (Option.some.inj hlocate)
  exact ⟨heq.symm, heq'.symm⟩

end Snapshot

end FederatedSearch
