import FederatedSearch.Proofs.Collector.Tables
import FederatedSearch.Proofs.Search.Documents
import Mathlib.Data.List.Flatten

/-!
# The first document of a key

A table of documents by key is made by groups. Within a group the matches come in ascending order, and
the first one with a key is the one that stays. Of several groups with the key the first one counts,
wherever its segments are in the snapshot: a group has segments from all over it, and a group that comes
first need not have the first match. So the table has the lowest match of the first group with the key.
That is the lowest match of all if there is just one group, or if just one segment has the key.

## Main definitions

* `IsLowest` — the lowest number of documents with a key

## Main results

* `first_of_lookup` — the number of a key is the lowest of the first group that has the key
* `searchOn_firstDocs` — the document of a key
-/

namespace FederatedSearch

namespace Collector

variable {catalog : Catalog} {query : Query} {field : String}

/-! ### Numbers by key -/

/-- The numbers of documents by their keys. Documents without a key are left out. -/
def numbersByKey (field : String) (found : List (Document × Nat)) : List (JoinKey × Nat) :=
  (found.filter (·.1.joinKey field ≠ noKey)).map fun e => (e.1.joinKey field, e.2)

/-- No document with the key has a lower number. -/
structure IsLowest (field : String) (key : JoinKey) (found : List (Document × Nat)) (number : Nat) :
    Prop where
  has : ∃ d, (d, number) ∈ found ∧ d.joinKey field = key
  le : ∀ e ∈ found, e.1.joinKey field = key → number ≤ e.2

theorem recorded_eq_numbersByKey [PatternEngines] {segments : List Placed}
    (h : ∀ placed ∈ segments, ∃ hits, placed.segment.search query true = .ok hits) :
    recorded Hit.doc field (offers query segments) =
      numbersByKey field (documentsOf query segments) := by
  have hentries : ∀ items : List Offer, recorded Hit.doc field items =
      ((items.map (Offer.entry field)).filter (·.1 ≠ noKey)).map fun x => (x.1, x.2.doc) := by
    intro items
    rw [recorded, keyed, List.filter_map]
    rfl
  rw [hentries, map_entry_offers h, numbersByKey, List.filter_map, List.map_map]
  rfl

section Numbers

variable {found : List (Document × Nat)} {key : JoinKey}

theorem mem_numbersByKey {number : Nat} : (key, number) ∈ numbersByKey field found ↔
    key ≠ noKey ∧ ∃ d, (d, number) ∈ found ∧ d.joinKey field = key := by
  simp only [numbersByKey, List.mem_map, List.mem_filter, decide_eq_true_eq, Prod.mk.injEq]
  constructor
  · rintro ⟨⟨d, _⟩, ⟨hmem, hne⟩, rfl, rfl⟩
    exact ⟨hne, d, hmem, rfl⟩
  · rintro ⟨hne, d, hmem, rfl⟩
    exact ⟨(d, number), ⟨hmem, hne⟩, rfl, rfl⟩

theorem numbersByKey_flatten (groups : List (List (Document × Nat))) :
    numbersByKey field groups.flatten = (groups.map (numbersByKey field)).flatten := by
  rw [numbersByKey, List.filter_flatten, List.map_flatten, List.map_map]
  rfl

theorem lookup_numbersByKey_eq_none : (numbersByKey field found).lookup key = none ↔
    key = noKey ∨ ∀ e ∈ found, e.1.joinKey field ≠ key := by
  rw [List.lookup_eq_none_iff]
  constructor
  · intro h
    refine or_iff_not_imp_left.mpr fun hne e he hkey => ?_
    have hmem : (key, e.2) ∈ numbersByKey field found := mem_numbersByKey.mpr ⟨hne, e.1, he, hkey⟩
    simpa using h _ hmem
  · rintro h ⟨other, number⟩ hmem
    obtain ⟨hne, d, hd, hkey⟩ := mem_numbersByKey.mp hmem
    rw [bne_iff_ne]
    rintro rfl
    exact h.elim hne fun hnone => hnone _ hd hkey

/-- Of ascending numbers the first one is the lowest. -/
theorem isLowest_of_lookup (hascend : found.Pairwise (·.2 < ·.2)) {number : Nat}
    (h : (numbersByKey field found).lookup key = some number) :
    key ≠ noKey ∧ IsLowest field key found number := by
  obtain ⟨before, after, heq, hbefore⟩ := List.lookup_eq_some_iff.mp h
  have hmem : (key, number) ∈ numbersByKey field found := by simp [heq]
  obtain ⟨hne, hhas⟩ := mem_numbersByKey.mp hmem
  refine ⟨hne, hhas, fun e he hkey => ?_⟩
  have hsorted : (numbersByKey field found).Pairwise (·.2 < ·.2) :=
    List.pairwise_map.mpr (hascend.sublist List.filter_sublist)
  have hin : (key, e.2) ∈ numbersByKey field found := mem_numbersByKey.mpr ⟨hne, e.1, he, hkey⟩
  rw [heq] at hsorted hin
  rcases List.mem_append.mp hin with hin | hin
  · exact absurd (hbefore _ hin) (by simp)
  · rcases List.mem_cons.mp hin with hsame | hin
    · exact Nat.le_of_eq (Prod.mk.inj hsame).2.symm
    · exact Nat.le_of_lt ((List.pairwise_cons.mp (List.pairwise_append.mp hsorted).2.1).1 _ hin)

/-- The lowest number of some documents is the lowest of all if all documents with the key are among
these. -/
theorem IsLowest.of_subset {number : Nat} {all : List (Document × Nat)}
    (h : IsLowest field key found number) (hsub : found ⊆ all)
    (hall : ∀ e ∈ all, e.1.joinKey field = key → e ∈ found) : IsLowest field key all number where
  has := h.has.imp fun _ hd => ⟨hsub hd.1, hd.2⟩
  le e he hkey := h.le e (hall e he hkey) hkey

end Numbers

/-! ### The document of a key -/

theorem documentsOf_flatten_groupsOf [PatternEngines] (query : Query) (w : Workshop)
    (snapshot : Snapshot) :
    (documentsOf query (groupsOf w snapshot).flatten).Perm (documentsOf query snapshot.segments) :=
  (flatten_groupsOf_perm w snapshot).flatMap_right _

section OfSegments

variable [PatternEngines] {w : Workshop} {core : String} {segments : List Segment} {key : JoinKey}
  {number : Nat}

/-- The lowest match of the first group that has the key. -/
theorem first_of_lookup
    (hsegments : ∀ placed ∈ (Snapshot.ofSegments core segments).segments,
      ∃ hits, placed.segment.search query true = .ok hits)
    (h : (numbersByKey field (documentsOf query
      (groupsOf w (Snapshot.ofSegments core segments)).flatten)).lookup key = some number) :
    ∃ before group after, groupsOf w (Snapshot.ofSegments core segments) = before ++ group :: after ∧
      (∀ e ∈ documentsOf query before.flatten, e.1.joinKey field ≠ key) ∧
      IsLowest field key (documentsOf query group) number := by
  rw [← documentsOf_flatten, numbersByKey_flatten, List.map_map] at h
  obtain ⟨before, group, after, heq, hbefore, hgroup⟩ := exists_first_of_lookup h
  have hascend : (documentsOf query group).Pairwise (·.2 < ·.2) := by
    have hmem : group ∈ groupsOf w (Snapshot.ofSegments core segments) := by simp [heq]
    exact (pairwise_documentsOf hsegments).sublist ((sublist_of_mem_groupsOf hmem).flatMap _)
  obtain ⟨hne, hlowest⟩ := isLowest_of_lookup hascend hgroup
  refine ⟨before, group, after, heq, ?_, hlowest⟩
  rw [← List.map_map, ← numbersByKey_flatten, documentsOf_flatten] at hbefore
  exact (lookup_numbersByKey_eq_none.mp hbefore).resolve_left hne

/-- A group that has a document with a key has all of them if there is no other group, or if they are
all in one segment. -/
theorem mem_group_of_key {before after : List (List Placed)} {group : List Placed}
    (hgroups : groupsOf w (Snapshot.ofSegments core segments) = before ++ group :: after)
    (hlowest : IsLowest field key (documentsOf query group) number)
    (h : w.concurrency ≤ 1 ∨ ∃ placed ∈ (Snapshot.ofSegments core segments).segments,
      ∀ e ∈ documentsOf query (Snapshot.ofSegments core segments).segments,
        e.1.joinKey field = key → e ∈ documentsOf query [placed]) :
    ∀ e ∈ documentsOf query (Snapshot.ofSegments core segments).segments,
      e.1.joinKey field = key → e ∈ documentsOf query group := by
  intro e he hkey
  rcases h with hone | ⟨placed, hplaced, hall⟩
  · have hlength := length_groupsOf_le w (Snapshot.ofSegments core segments)
    rw [hgroups, List.length_append, List.length_cons] at hlength
    have hbefore : before = [] := List.eq_nil_of_length_eq_zero (by omega)
    have hafter : after = [] := List.eq_nil_of_length_eq_zero (by omega)
    have hperm := documentsOf_flatten_groupsOf query w (Snapshot.ofSegments core segments)
    rw [hgroups, hbefore, hafter, List.nil_append, List.flatten_singleton] at hperm
    exact hperm.mem_iff.mpr he
  · -- the lowest document of the group leads to the segment
    obtain ⟨d, hd, hkey'⟩ := hlowest.has
    obtain ⟨other, hother, hd'⟩ := mem_documentsOf_iff_exists.mp hd
    have hmem : group ∈ groupsOf w (Snapshot.ofSegments core segments) := by simp [hgroups]
    have hother' := (sublist_of_mem_groupsOf hmem).subset hother
    have hin := hall _ (mem_documentsOf_iff_exists.mpr ⟨other, hother', hd'⟩) hkey'
    obtain rfl := eq_of_mem_documentsOf hplaced hother' hin hd'
    exact mem_documentsOf_iff_exists.mpr ⟨placed, hother, hall e he hkey⟩

/-- **The document of a key.** Let a search for the documents by their keys succeed, with its groups on
any schedule. A key that no matching live document has is not in the table. Any other key has the lowest
of these documents in the first group that has one; so it has the lowest of all if there is just one
group, or if the documents with the key are all in one segment. -/
theorem searchOn_firstDocs {schedule : Schedule} {columns : KeyColumns}
    (hlists : ∀ placed ∈ (Snapshot.ofSegments core segments).segments, catalog.Lists placed.segment)
    (hsound : columns.Sound catalog) {t : DocTable}
    (hok : (((firstDocs field).searchOn w schedule (.ofSegments core segments) query).result
      (columns, ())).1 = .ok t) (key : JoinKey) :
    let snapshot := Snapshot.ofSegments core segments
    let found := documentsOf query snapshot.segments
    (t.get? key = none ↔ key = noKey ∨ ∀ e ∈ found, e.1.joinKey field ≠ key) ∧
      ∀ number, t.get? key = some number →
        (∃ before group after, groupsOf w snapshot = before ++ group :: after ∧
          (∀ e ∈ documentsOf query before.flatten, e.1.joinKey field ≠ key) ∧
          IsLowest field key (documentsOf query group) number) ∧
        ((w.concurrency ≤ 1 ∨ ∃ placed ∈ snapshot.segments,
          ∀ e ∈ found, e.1.joinKey field = key → e ∈ documentsOf query [placed]) →
            IsLowest field key found number) := by
  intro snapshot found
  have hperm := flatten_groupsOf_perm w snapshot
  have hlists' : ∀ group ∈ groupsOf w snapshot, ∀ placed ∈ group, catalog.Lists placed.segment :=
    fun group hgroup placed hmem => hlists placed ((sublist_of_mem_groupsOf hgroup).subset hmem)
  obtain ⟨hsearched, -, hrecords⟩ := (((tabulates_firstDocs field).comes core _ query).searchGroups
    (modest_firstDocs field) w hlists' hsound schedule).of_ok hok
  have hsegments : ∀ placed ∈ snapshot.segments, ∃ hits, placed.segment.search query true = .ok hits :=
    fun placed hmem => hsearched placed (hperm.mem_iff.mpr hmem)
  have hget : t.get? key =
      (numbersByKey field (documentsOf query (groupsOf w snapshot).flatten)).lookup key := by
    rw [hrecords key, recorded_eq_numbersByKey hsearched]
  have hfound := documentsOf_flatten_groupsOf query w snapshot
  refine ⟨?_, fun number hnumber => ?_⟩
  · rw [hget, lookup_numbersByKey_eq_none]
    simp only [hfound.mem_iff, found]
  · obtain ⟨before, group, after, hgroups, hbefore, hlowest⟩ :=
      first_of_lookup hsegments (hget.symm.trans hnumber)
    refine ⟨⟨before, group, after, hgroups, hbefore, hlowest⟩, fun h => ?_⟩
    refine hlowest.of_subset (fun e he => ?_) (mem_group_of_key hgroups hlowest h)
    have hmem : group ∈ groupsOf w snapshot := by
      rw [hgroups]
      exact List.mem_append_right _ List.mem_cons_self
    exact ((sublist_of_mem_groupsOf hmem).flatMap _).subset he

end OfSegments

/-- A segment of one document. -/
def crate (identity : Nat) (id : String) (key : Int64) : Segment :=
  .indexed { core := "stock", identity := ⟨identity⟩, docs := #[{ id, fields := .ofList [("K", .int key)] }] }

/-- The last two crates have the same key. Of two groups the first one has the first crate and the last,
as it is the least loaded one again when the last crate comes. -/
def crates : List Segment := [crate 1 "s0" 1, crate 2 "s1" 7, crate 3 "s2" 7]

/-- What is published under the three identities. -/
def crateCatalog : Catalog := fun id => crates.find? (·.identity = id)

/-- The table of a search with two groups. -/
def crateTable : DocTable := ⟨#[none, some 0, none, none, none, none, none, some 2]⟩

theorem searchOn_crates : (((firstDocs "K").searchOn ⟨2, fun _ => true⟩ []
    (.ofSegments "stock" crates) .all).result ({}, ())).1 = .ok crateTable := by
  decide +kernel

/-- The table has the last crate for key 7, which is the lowest one of the first group. -/
theorem searchOn_firstDocs_crates :
    crateTable.get? 7 = some 2 ∧ ∃ before group after,
      groupsOf ⟨2, fun _ => true⟩ (.ofSegments "stock" crates) = before ++ group :: after ∧
        (∀ e ∈ documentsOf .all before.flatten, e.1.joinKey "K" ≠ 7) ∧
        IsLowest "K" 7 (documentsOf .all group) 2 := by
  have hlists : ∀ placed ∈ (Snapshot.ofSegments "stock" crates).segments,
      crateCatalog.Lists placed.segment := by
    simp [Snapshot.ofSegments, placeFrom, crates, Catalog.Lists, crateCatalog, crate, Segment.identity]
  obtain ⟨-, hdoc⟩ := searchOn_firstDocs hlists KeyColumns.sound_empty searchOn_crates 7
  exact ⟨rfl, (hdoc 2 rfl).1⟩

/-- The table need not have the lowest of all documents with a key: the crate in the middle is lower than
the last one. -/
theorem not_searchOn_lowest : ¬ ∀ (segments : List Segment) (query : Query) (field : String)
    (concurrency : Nat) (t : DocTable), 1 ≤ concurrency →
      (((firstDocs field).searchOn ⟨concurrency, fun _ => true⟩ []
        (.ofSegments "stock" segments) query).result ({}, ())).1 = .ok t →
      ∀ key number, key ≠ noKey → (t.get? key = some number ↔
        IsLowest field key (documentsOf query (Snapshot.ofSegments "stock" segments).segments) number) := by
  intro h
  have hlowest := (h crates .all "K" 2 crateTable (by decide) searchOn_crates 7 2 (by decide)).mp rfl
  have hmiddle : ((⟨"s1", .ofList [("K", .int 7)]⟩ : Document), 1) ∈
      documentsOf .all (Snapshot.ofSegments "stock" crates).segments := by
    decide +kernel
  exact absurd (hlowest.le _ hmiddle rfl) (by decide)

end Collector

end FederatedSearch
