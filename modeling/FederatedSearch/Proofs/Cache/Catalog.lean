import FederatedSearch.Proofs.Process.Splits
import FederatedSearch.Search.Run

/-!
# What is remembered about a segment

Nothing that is remembered under an identity ever has to be taken back: an identity stands for one
published segment, and a segment does not change. A `Catalog` lists the segments published so far by
their identities. A memory is sound if each of its entries says what is true of the segment that the
catalog has for its identity.

Which segments live makes no difference here. It decides whether an entry is found and when it is
dropped, and a memory stays sound either way.

## Main definitions

* `Catalog` — the published segments
* `SegmentMap.Sound` — each entry is true of its segment
* `KeyColumns.Sound` — the columns are those of the segments

## Main results

* `SegmentMap.Sound.get?`, `SegmentMap.Sound.insertIfAbsent`
* `shadows_loadColumns` — loading through sound columns is reading the segment
-/

namespace FederatedSearch

/-! ### Published segments -/

/-- The segments published so far. No identity is given out twice, so there is one for each. -/
abbrev Catalog := Identity → Option Segment

namespace Catalog

def Lists (catalog : Catalog) (s : Segment) : Prop := catalog s.identity = some s

/-- Every segment that was published before still is. -/
def IsExtendedBy (catalog larger : Catalog) : Prop :=
  ∀ id s, catalog id = some s → larger id = some s

theorem IsExtendedBy.refl (catalog : Catalog) : catalog.IsExtendedBy catalog := fun _ _ h => h

theorem IsExtendedBy.trans {a b c : Catalog} (h : a.IsExtendedBy b) (h' : b.IsExtendedBy c) :
    a.IsExtendedBy c := fun id s hs => h' id s (h id s hs)

theorem IsExtendedBy.lists {catalog larger : Catalog} (h : catalog.IsExtendedBy larger) {s : Segment}
    (hs : catalog.Lists s) : larger.Lists s := h _ _ hs

end Catalog

/-! ### Sound memories -/

namespace SegmentMap

variable {κ α : Type} {catalog : Catalog} {fact : Segment → κ → α → Prop} {m : SegmentMap κ α}

/-- Each entry states a fact about the segment of its identity. -/
def Sound (catalog : Catalog) (fact : Segment → κ → α → Prop) (m : SegmentMap κ α) : Prop :=
  ∀ e ∈ m.entries, ∃ s, catalog e.1.1 = some s ∧ fact s e.1.2 e.2

theorem sound_empty : (empty : SegmentMap κ α).Sound catalog fact := by
  intro e he
  exact absurd he List.not_mem_nil

theorem Sound.extend {larger : Catalog} (h : m.Sound catalog fact)
    (hext : catalog.IsExtendedBy larger) : m.Sound larger fact := by
  intro e he
  obtain ⟨s, hs, hfact⟩ := h e he
  exact ⟨s, hext _ _ hs, hfact⟩

theorem Sound.purge (h : m.Sound catalog fact) (live : Liveness) :
    (m.purge live).Sound catalog fact :=
  fun e he => h e (List.mem_filter.mp he).1

theorem Sound.makeRoom (h : m.Sound catalog fact) (live : Liveness) :
    (m.makeRoom live).Sound catalog fact := by
  rw [SegmentMap.makeRoom]
  split
  · exact h.purge live
  · exact h

variable [DecidableEq κ]

/-- What is looked up for a segment is a fact about it. -/
theorem Sound.of_lookup (h : m.Sound catalog fact) {s : Segment} (hs : catalog.Lists s) {key : κ}
    {value : α} (hlookup : m.entries.lookup (s.identity, key) = some value) : fact s key value := by
  obtain ⟨front, back, hentries, -⟩ := List.lookup_eq_some_iff.mp hlookup
  obtain ⟨other, hother, hfact⟩ := h ((s.identity, key), value) (by simp [hentries])
  rw [show other = s from Option.some.inj (hother.symm.trans hs)] at hfact
  exact hfact

theorem Sound.get? (h : m.Sound catalog fact) {live : Liveness} {s : Segment}
    (hs : catalog.Lists s) {key : κ} {value : α}
    (hget : m.get? live s.identity key = some value) : fact s key value := by
  rw [SegmentMap.get?] at hget
  split at hget
  · exact h.of_lookup hs hget
  · exact absurd hget (by simp)

/-- What is kept is a fact, whether it is the new value or an earlier one. -/
theorem Sound.insertIfAbsent (h : m.Sound catalog fact) (live : Liveness) {s : Segment}
    (hs : catalog.Lists s) {key : κ} {value : α} (hvalue : fact s key value) :
    fact s key (m.insertIfAbsent live s.identity key value).1 ∧
      (m.insertIfAbsent live s.identity key value).2.Sound catalog fact := by
  have hroom := h.makeRoom live
  rw [SegmentMap.insertIfAbsent]
  split
  · rename_i kept hkept
    exact ⟨hroom.of_lookup hs hkept, hroom⟩
  · refine ⟨hvalue, fun e he => ?_⟩
    rcases List.mem_cons.mp he with rfl | he
    · exact ⟨s, hs, hvalue⟩
    · exact hroom e he

end SegmentMap

/-! ### Sound columns -/

namespace KeyColumns

/-- The columns are those that the segments have. -/
def Sound (catalog : Catalog) (c : KeyColumns) : Prop :=
  SegmentMap.Sound catalog (fun s field column => s.joinKeys field = .ok column) c

variable {catalog : Catalog} {c : KeyColumns}

theorem sound_empty : KeyColumns.Sound catalog {} := SegmentMap.sound_empty

theorem Sound.extend {larger : Catalog} (h : c.Sound catalog)
    (hext : catalog.IsExtendedBy larger) : c.Sound larger :=
  SegmentMap.Sound.extend h hext

/-- What is kept of a column that was read is that column. -/
theorem Sound.insertIfAbsent (h : c.Sound catalog) (live : Liveness) {s : Segment}
    (hs : catalog.Lists s) {field : String} {column : KeyColumn} (hread : s.joinKeys field = .ok column) :
    (SegmentMap.insertIfAbsent c live s.identity field column).1 = column ∧
      KeyColumns.Sound catalog (SegmentMap.insertIfAbsent c live s.identity field column).2 := by
  obtain ⟨hkept, hsound⟩ := SegmentMap.Sound.insertIfAbsent h live hs hread
  exact ⟨Except.ok.inj (hkept.symm.trans hread), hsound⟩

/-- Columns that are loaded keep the others sound, whatever is done to these in the meantime. -/
theorem ensures_load (live : Liveness) {s : Segment} (hs : catalog.Lists s) (field : String)
    (c : KeyColumns) :
    (load live s field).Ensures (.keeping (KeyColumns.Sound catalog)) (fun _ _ => True)
      (fun _ => True) c := by
  have hlook : (Process.update fun c : KeyColumns => (c.get? live s.identity field, c)).Ensures
      (.keeping (KeyColumns.Sound catalog)) (fun _ _ => True) (fun _ => True) c :=
    Process.ensures_update fun t _ => ⟨id, trivial⟩
  refine hlook.bind fun found t _ _ => ?_
  cases found with
  | some column => exact Process.ensures_pure trivial
  | none =>
    rcases hread : s.joinKeys field with failure | column
    · exact trivial
    · exact Process.ensures_update fun u hu =>
        ⟨fun hsound => (Sound.insertIfAbsent hsound live hs hread).2, trivial⟩

/-- **Loading a column** through sound ones is reading it. -/
theorem shadows_load {B : Type} (live : Liveness) {s : Segment} (hs : catalog.Lists s) (field : String) :
    Process.Shadows (Process.Besides (τ := B) (KeyColumns.Sound catalog))
      (fun column column' => column = column' ∧ s.joinKeys field = .ok column)
      ((load live s field).focus .first) (.ofExcept (s.joinKeys field)) := by
  have hlook : Process.Shadows (Process.Besides (τ := B) (KeyColumns.Sound catalog))
      (fun found _ => ∀ column, found = some column → s.joinKeys field = .ok column)
      ((Process.update fun c : KeyColumns => (c.get? live s.identity field, c)).focus .first)
      (pure ()) :=
    .besides (fun _ _ _ h => h) fun _ t b ht =>
      .ok fun column hget => SegmentMap.Sound.get? ht.1 hs hget
  rw [load, Process.focus_bind]
  refine hlook.bind (g := fun _ => .ofExcept (s.joinKeys field)) fun found _ hfound => ?_
  cases found with
  | some column => rw [hfound column rfl]; exact .ok ⟨rfl, rfl⟩
  | none =>
    rcases hread : s.joinKeys field with failure | column
    · exact .fails
    · refine .besides (fun _ u b hu => ?_) fun _ u b hu => ?_
      · exact ⟨(Sound.insertIfAbsent hu.1 live hs hread).2, hu.2⟩
      · have hkept := (Sound.insertIfAbsent hu.1 live hs hread).1
        exact .ok ⟨hkept, congrArg Except.ok hkept.symm⟩

end KeyColumns

/-- Read the column of each field. -/
def readColumns (s : Segment) (fields : List String) : Except Failure (List (String × KeyColumn)) :=
  fields.mapM fun field => (s.joinKeys field).map (field, ·)

theorem readColumns_cons (s : Segment) (field : String) (fields : List String) :
    readColumns s (field :: fields) = (do
      let column ← s.joinKeys field
      let rest ← readColumns s fields
      return (field, column) :: rest) := by
  rw [readColumns, List.mapM_cons]
  rcases s.joinKeys field with _ | _ <;> rfl

variable {catalog : Catalog} {s : Segment} (hs : catalog.Lists s)
include hs

theorem ensures_loadColumns (live : Liveness) (fields : List String) (c : KeyColumns) :
    (loadColumns live s fields).Ensures (.keeping (KeyColumns.Sound catalog)) (fun _ _ => True)
      (fun _ => True) c := by
  induction fields generalizing c with
  | nil => exact Process.ensures_pure trivial
  | cons field fields ih =>
    exact (KeyColumns.ensures_load live hs field c).bind fun _ t _ _ =>
      (ih t).bind fun _ _ _ _ => Process.ensures_pure trivial

/-- **Loading columns** through sound ones is reading the segment. -/
theorem shadows_loadColumns {B : Type} (live : Liveness) (fields : List String) :
    Process.Shadows (Process.Besides (τ := B) (KeyColumns.Sound catalog))
      (fun columns columns' => columns = columns' ∧ readColumns s fields = .ok columns)
      ((loadColumns live s fields).focus .first) (.ofExcept (readColumns s fields)) := by
  induction fields with
  | nil => exact .ok ⟨rfl, rfl⟩
  | cons field fields ih =>
    rw [readColumns_cons, loadColumns, Process.focus_bind, Process.ofExcept_bind]
    refine (KeyColumns.shadows_load live hs field).bind ?_
    rintro column _ ⟨rfl, hcolumn⟩
    rw [Process.focus_bind, Process.ofExcept_bind]
    refine ih.bind ?_
    rintro rest _ ⟨rfl, hrest⟩
    refine .ok ⟨rfl, ?_⟩
    rw [hcolumn, hrest]
    rfl

end FederatedSearch
