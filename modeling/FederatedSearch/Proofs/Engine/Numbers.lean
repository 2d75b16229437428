import FederatedSearch.Proofs.Collector.FirstDocs
import FederatedSearch.Proofs.Collector.Outcome
import FederatedSearch.Proofs.Engine.Grouping
import FederatedSearch.Proofs.Sort.Keys

/-!
# Numbers that lead back

Documents are handed on as numbers: a page is a list of numbers with scores, and a table of related
documents has one number for each key. The segment and the place in it are found again when the document is
read. Nothing is lost on the way, wherever there are empty segments: each number that a search reports, on
a page or in a table, leads back to the document that was visited. So a page shows the documents that were
found, and a sort key that belongs to another core is read from the document that the table has, never
for want of it.

## Main definitions

* `Collector.ComesTo` — the result of a search of a snapshot, in some groups and on some schedule
* `Snapshot.Leads` — a number leads back to a document

## Main results

* `leads_of_mem_offers` — the number of a match
* `Collector.leads_of_mostRelevant`, `Collector.leads_of_firstInOrder`, `Collector.leads_of_collapsing` — the
  numbers on a page
* `Collector.leads_of_table`, `key_of_table` — the numbers in a table of documents, and sort keys
* `numbers_lead_back` — all numbers of a snapshot
-/

namespace FederatedSearch

/-- A search of the snapshot may come to this, with its segments spread over groups in any way, on any
schedule, and with any sound columns. -/
def Collector.ComesTo [PatternEngines] {B L P F : Type} (c : Collector B L P F) (snapshot : Snapshot)
    (query : Query) (fruit : F) : Prop :=
  ∃ (catalog : Catalog) (w : Workshop) (groups : List (List Placed)) (schedule : Schedule)
    (columns : KeyColumns),
    (∀ placed ∈ snapshot.segments, catalog.Lists placed.segment) ∧
      groups.flatten.Perm snapshot.segments ∧ columns.Sound catalog ∧
      ((c.searchGroups w schedule snapshot.core groups query).result (columns, c.board)).1 = .ok fruit

/-- The number leads back to a document that a search visits: a live one that matches the query, in the
segment that the number locates and at the place that it locates. -/
structure Snapshot.Leads [PatternEngines] (snapshot : Snapshot) (query : Query) (number : Nat)
    (placed : Placed) (doc : Nat) (d : Document) : Prop where
  located : snapshot.locate number = some (placed, doc)
  /-- What has been bound to all segments, in order, is found under the position of this one. -/
  at_ord : snapshot.segments[placed.ord]? = some placed
  number_eq : number = placed.base + doc
  found : ∃ s, placed.segment = .indexed s ∧ s.docs[doc]? = some d ∧ s.deleted.contains doc = false
  satisfies : d.satisfies query = true
  visited : ∃ hit ∈ placed.segment.hits query, hit.doc = doc
  stored : snapshot.stored number = .ok d

section OfSegments

variable [PatternEngines] {core : String} {segments : List Segment} {query : Query}

/-- **The number of a match** leads back to the document. -/
theorem leads_of_mem_offers {e : Offer}
    (he : e ∈ offers query (Snapshot.ofSegments core segments).segments) :
    ∃ d, (Snapshot.ofSegments core segments).Leads query e.number e.1 e.2.doc d ∧
      ∀ field, e.key field = d.joinKey field := by
  obtain ⟨hplaced, hhit⟩ := mem_offers.mp he
  obtain ⟨s, d, hs, hd⟩ := Segment.exists_document_of_mem_hits hhit
  obtain ⟨hget, hlive, hmatch⟩ := s.mem_numbered.mp hd
  refine ⟨d, ?_, fun field => ?_⟩
  · exact
      { located := Snapshot.locate_of_lt hplaced (doc_lt_of_mem_offers he)
        at_ord := Snapshot.getElem?_ord hplaced
        number_eq := rfl
        found := ⟨s, hs, hget, hlive⟩
        satisfies := hmatch
        visited := ⟨e.2, hhit, rfl⟩
        stored := by rw [stored_of_mem_offers he, hs, Segment.stored, hget] }
  · rw [Offer.key, Bound.of, Bound.key, hs, IndexedSegment.key_column,
      IndexedSegment.joinKey_of_getElem? hget]

/-- What leads back does so whatever its score is. -/
theorem leads_of_mem_blendedOffers {ranks : List RankSource} {ratio : Binary32}
    {groups : List (List Placed)}
    (hgroups : groups.flatten.Perm (Snapshot.ofSegments core segments).segments) {e : Offer}
    (he : e ∈ Collector.blendedOffers ranks ratio query groups.flatten) :
    ∃ placed doc d, (Snapshot.ofSegments core segments).Leads query e.hit.doc placed doc d := by
  obtain ⟨original, hmem, rfl⟩ := List.mem_map.mp he
  obtain ⟨d, hleads, -⟩ := leads_of_mem_offers ((offers_perm query hgroups).mem_iff.mp hmem)
  rw [Offer.hit_eq, Collector.number_blendOffer]
  exact ⟨original.1, original.2.doc, d, hleads⟩

namespace Collector

/-- A search comes to what such searches come to, in some groups. -/
theorem ComesTo.exists_groups {B L P F : Type} {c : Collector B L P F} {snapshot : Snapshot} {fruit : F}
    (h : c.ComesTo snapshot query fruit) {view : L → List String} (hmodest : c.Modest view)
    {good : List (List Placed) → F → Prop} {bad : List (List Placed) → Failure → Prop}
    (hcomes : ∀ groups, groups.flatten.Perm snapshot.segments →
      c.Comes snapshot.core groups query (good groups) (bad groups)) :
    ∃ groups, groups.flatten.Perm snapshot.segments ∧ good groups fruit := by
  obtain ⟨catalog, w, groups, schedule, columns, hlists, hgroups, hsound, hok⟩ := h
  refine ⟨groups, hgroups, ((hcomes groups hgroups).searchGroups hmodest w
    (forall_group_of_perm hlists hgroups) hsound schedule).of_ok hok⟩

section Pages

variable (ranks : List RankSource) (ratio : Binary32) (limit : Nat)

theorem leads_of_mostRelevant {hits : List Hit}
    (h : ((mostRelevant limit).blended ranks ratio).ComesTo (.ofSegments core segments) query hits) :
    ∀ hit ∈ hits, ∃ placed doc d,
      (Snapshot.ofSegments core segments).Leads query hit.doc placed doc d := by
  obtain ⟨groups, hgroups, -, rfl⟩ := h.exists_groups
    (modest_blended ranks ratio (modest_mostRelevant limit))
    fun groups _ => comes_mostRelevant ranks ratio _ groups query limit
  intro hit hhit
  obtain ⟨e, he, rfl⟩ := List.mem_map.mp (mem_of_mem_best _ hhit)
  exact leads_of_mem_blendedOffers hgroups he

/-- A page without room has no hits, whatever is read for it. -/
theorem ComesTo.eq_nil {clauses : List SortClause} {snapshot : Snapshot} {page : List SortedHit}
    (h : ((firstInOrder clauses 0).blended ranks ratio).ComesTo snapshot query page) : page = [] := by
  obtain ⟨catalog, w, groups, schedule, columns, -, -, -, hok⟩ := h
  rw [result_searchGroups] at hok
  rcases hr : (Gathering.gather snapshot.core schedule (groups.map
    (((firstInOrder clauses 0).blended ranks ratio).runGroup w query))).result (columns,
      ((firstInOrder clauses 0).blended ranks ratio).board) with ⟨failure | partials, t⟩ <;> rw [hr] at hok
  · exact absurd hok error_ne_ok
  · exact (Except.ok.inj hok).symm

theorem leads_of_firstInOrder (clauses : List SortClause) {page : List SortedHit}
    (h : ((firstInOrder clauses limit).blended ranks ratio).ComesTo (.ofSegments core segments) query
      page) :
    ∀ x ∈ page, ∃ placed doc d,
      (Snapshot.ofSegments core segments).Leads query x.hit.doc placed doc d := by
  intro x hx
  by_cases hlimit : limit = 0
  · subst hlimit
    rw [h.eq_nil] at hx
    exact absurd hx List.not_mem_nil
  · obtain ⟨groups, hgroups, -, hits, hhits, hfirst⟩ := h.exists_groups
      (modest_blended ranks ratio (modest_firstInOrder clauses limit))
      fun groups hgroups => comes_firstInOrder_blended ranks ratio _ groups query hlimit
        (Numbered.blend ranks ratio ((numbered_offers query core segments).perm
          (offers_perm query hgroups).symm))
    obtain ⟨sorted, hperm, -, rfl⟩ := hfirst
    obtain ⟨e, he, hsorts⟩ := exists_of_forall₂ hhits.flip (hperm.mem_iff.mp (List.mem_of_mem_take hx))
    rw [hsorts.1]
    exact leads_of_mem_blendedOffers hgroups he

/-- Numbers fit into packed hits if there are less than `2 ^ 32` documents. -/
theorem leads_of_collapsing (hsize : (segments.map (·.size)).sum < 2 ^ 32) (field : String) (budget : Nat)
    {r : Collapsed}
    (h : ((collapsing field limit budget).blended ranks ratio).ComesTo (.ofSegments core segments) query
      r) :
    ∀ hit ∈ r.hits, ∃ placed doc d,
      (Snapshot.ofSegments core segments).Leads query hit.doc placed doc d := by
  obtain ⟨groups, hgroups, -, b, hcovers, rfl⟩ := h.exists_groups
    (modest_blended ranks ratio (modest_collapsing field limit budget))
    fun groups _ => comes_collapsing_blended ranks ratio _ groups query field limit budget
  have hdocs : ∀ e ∈ blendedOffers ranks ratio query groups.flatten, e.number ≤ maxPackedDoc := by
    intro e he
    obtain ⟨original, hmem, rfl⟩ := List.mem_map.mp he
    have hnumber := number_lt_of_mem_offers ((offers_perm query hgroups).mem_iff.mp hmem)
    rw [number_blendOffer, maxPackedDoc]
    omega
  intro hit hhit
  rcases List.mem_append.mp (mem_of_mem_best _ hhit) with hunkeyed | hrecord
  · obtain ⟨e, he, rfl⟩ := List.mem_map.mp hunkeyed
    exact leads_of_mem_blendedOffers hgroups (List.mem_filter.mp he).1
  · obtain ⟨record, hmem, hunpack⟩ := List.mem_map.mp hrecord
    obtain ⟨e, he, -, -, hhit, -⟩ := exists_of_record hcovers hdocs hmem
    rw [← hunpack, ← hhit]
    exact leads_of_mem_blendedOffers hgroups he

end Pages

/-- **The numbers in a table** lead back to documents with the key. -/
theorem leads_of_table {field : String} {t : DocTable}
    (ht : (firstDocs field).ComesTo (.ofSegments core segments) query t) {key : JoinKey} {number : Nat}
    (hnumber : t.get? key = some number) :
    key ≠ noKey ∧ ∃ placed doc d, (Snapshot.ofSegments core segments).Leads query number placed doc d ∧
      d.joinKey field = key := by
  obtain ⟨groups, hgroups, -, -, hrecords⟩ := ht.exists_groups (modest_firstDocs field)
    fun groups _ => (tabulates_firstDocs field).comes _ groups query
  rw [hrecords key, lookup_recorded] at hnumber
  obtain ⟨hit, hlookup, rfl⟩ := Option.map_eq_some_iff.mp hnumber
  obtain ⟨before, after, hkeyed, -⟩ := List.lookup_eq_some_iff.mp hlookup
  have hmem : (key, hit) ∈ keyed field (offers query groups.flatten) := by
    rw [hkeyed]
    exact List.mem_append_right _ List.mem_cons_self
  obtain ⟨e, he, hne, heq⟩ := mem_keyed.mp hmem
  obtain ⟨rfl, rfl⟩ := Prod.mk.inj heq
  obtain ⟨d, hleads, hkey⟩ := leads_of_mem_offers ((offers_perm query hgroups).mem_iff.mp he)
  exact ⟨hne, e.1, e.2.doc, d, hleads, (hkey field).symm⟩

end Collector

/-! ### Sort keys of another core -/

open Collector

/-- The sort key of a hit under the clause is what the sort field makes of a value, or of none. -/
def SortClause.Reads (clause : SortClause) (f : SortField) (bound : Bound) (own : Placed) (hit : Hit)
    (value : Option FieldValue) : Prop :=
  ∃ key, clause.key bound own hit = .ok key ∧ (SortReading.ofField f).Makes .zero value key

omit [PatternEngines] in
/-- What is read of a document in its segment is read of the document. -/
theorem SortReading.read_of_getElem? (r : SortReading) (field : String) {s : IndexedSegment} {doc : Nat}
    {d : Document} (hget : s.docs[doc]? = some d) (score : Binary32) :
    r.read field (.indexed s) ⟨doc, score⟩ = .ok (r.keyOf score (d.field? field)) := by
  have hvalue : Segment.value field doc (.indexed s) = .ok (d.field? field) := by
    rw [Segment.value, IndexedSegment.value, hget, Option.bind_some]
  cases r with
  | score => rfl
  | text | int | double => exact congrArg (Except.map _) hvalue

/-- What a sort field reads under a number that leads back. -/
theorem Snapshot.Leads.readAt {snapshot : Snapshot} {number doc : Nat} {placed : Placed} {d : Document}
    (h : snapshot.Leads query number placed doc d) (f : SortField) :
    f.readAt snapshot number = some (.ok ((SortReading.ofField f).keyOf .zero (d.field? f.field))) := by
  obtain ⟨s, hs, hget, -⟩ := h.found
  rw [SortField.readAt, h.located, Option.map_some, hs, SortReading.read_of_getElem? _ _ hget]

/-- **A sort key that belongs to another core** is read from the document that the table has. -/
theorem Snapshot.Leads.key_related {snapshot : Snapshot} {number doc : Nat} {placed : Placed}
    {d : Document}
    (h : snapshot.Leads query number placed doc d) {f : SortField} {keyField : String} {table : DocTable}
    {clause : SortClause} (hclause : SortClause.related? f keyField table snapshot = .ok clause)
    {bound : Bound} {hit : Hit} (hkey : bound.key keyField hit.doc ≠ noKey)
    (hnumber : table.get? (bound.key keyField hit.doc) = some number) (own : Placed) :
    clause.Reads f bound own hit (d.field? f.field) := by
  refine ⟨_, ?_, SortReading.makes_keyOf _ _ _⟩
  rw [SortClause.key_related hclause, if_neg hkey, hnumber, Option.map_some, h.readAt, Option.join_some,
    Option.getD_some]

omit [PatternEngines] in
/-- A hit whose key is not in the table has the key of a missing value. -/
theorem SortClause.key_of_get?_eq_none {snapshot : Snapshot} {f : SortField} {keyField : String}
    {table : DocTable} {clause : SortClause} (hclause : related? f keyField table snapshot = .ok clause)
    {bound : Bound} {hit : Hit} (hnone : table.get? (bound.key keyField hit.doc) = none) (own : Placed) :
    clause.Reads f bound own hit none := by
  refine ⟨_, ?_, SortReading.makes_none_iff.mpr rfl⟩
  rw [key_related hclause, hnone]
  split <;> rfl

/-- **A sort key through a table** is that of the document which the table has, and that of a missing value
where it has none. -/
theorem key_of_table {field : String} {table : DocTable}
    (htable : (firstDocs field).ComesTo (.ofSegments core segments) query table) {f : SortField}
    {keyField : String} {clause : SortClause}
    (hclause : SortClause.related? f keyField table (.ofSegments core segments) = .ok clause)
    (bound : Bound) (own : Placed) (hit : Hit) :
    (table.get? (bound.key keyField hit.doc) = none →
      clause.Reads f bound own hit none) ∧
    ∀ number, table.get? (bound.key keyField hit.doc) = some number → ∃ placed doc d,
      (Snapshot.ofSegments core segments).Leads query number placed doc d ∧
        d.joinKey field = bound.key keyField hit.doc ∧
        clause.Reads f bound own hit (d.field? f.field) := by
  refine ⟨fun hnone => SortClause.key_of_get?_eq_none hclause hnone own, fun number hnumber => ?_⟩
  obtain ⟨hkey, placed, doc, d, hleads, hjoin⟩ := leads_of_table htable hnumber
  exact ⟨placed, doc, d, hleads, hjoin, hleads.key_related hclause hkey hnumber own⟩

/-! ### All numbers -/

/-- **Numbers lead back.** Let a snapshot have any segments, empty ones among them, with fewer than `2 ^ 32`
documents in all. The segments that start at a number or before it are the first ones. Each number that a
segment has leads back to the segment, which is found under its position, and to the place in it, and
there is room for the next number; a number that no segment has leads nowhere. So a match leads back to
its document from the number under which it is collected. The hits that searches of the snapshot report,
most relevant, in a sort order or collapsed, and with scores blended in any way, lead back to documents
that were visited, and these are what is stored under their numbers. So do the numbers in a table that
was made over the snapshot. A sort key that goes through the table is that of the document which the table
has for the join key; where the table has none, it is that of a missing value. -/
theorem numbers_lead_back (core : String) (segments : List Segment)
    (hsize : (segments.map (·.size)).sum < 2 ^ 32) :
    let snapshot := Snapshot.ofSegments core segments
    (∀ (number i : Nat) (placed : Placed), snapshot.segments[i]? = some placed →
      (i < (snapshot.segments.takeWhile (·.base ≤ number)).length ↔ placed.base ≤ number)) ∧
    (∀ (i : Nat) (segment : Segment), segments[i]? = some segment → ∃ placed,
      snapshot.segments[i]? = some placed ∧ placed.ord = i ∧ placed.segment = segment ∧
        ∀ doc < segment.size, snapshot.locate (placed.base + doc) = some (placed, doc) ∧
          placed.base + doc + 1 < 2 ^ 32) ∧
    (∀ number, (segments.map (·.size)).sum ≤ number → snapshot.locate number = none) ∧
    ∀ query : Query,
      (∀ e ∈ offers query snapshot.segments, ∃ d, snapshot.Leads query e.number e.1 e.2.doc d) ∧
      (∀ (ranks : List RankSource) (ratio : Binary32),
        (∀ limit hits, ((mostRelevant limit).blended ranks ratio).ComesTo snapshot query hits →
          ∀ hit ∈ hits, ∃ placed doc d, snapshot.Leads query hit.doc placed doc d) ∧
        (∀ clauses limit page,
          ((firstInOrder clauses limit).blended ranks ratio).ComesTo snapshot query page →
            ∀ x ∈ page, ∃ placed doc d, snapshot.Leads query x.hit.doc placed doc d) ∧
        ∀ field limit budget r,
          ((collapsing field limit budget).blended ranks ratio).ComesTo snapshot query r →
            ∀ hit ∈ r.hits, ∃ placed doc d, snapshot.Leads query hit.doc placed doc d) ∧
      ∀ (field : String) (table : DocTable), (firstDocs field).ComesTo snapshot query table →
        ∀ (f : SortField) (keyField : String) (clause : SortClause),
          SortClause.related? f keyField table snapshot = .ok clause →
            ∀ (bound : Bound) (own : Placed) (hit : Hit),
              (table.get? (bound.key keyField hit.doc) = none →
                clause.Reads f bound own hit none) ∧
              ∀ number, table.get? (bound.key keyField hit.doc) = some number → ∃ placed doc d,
                snapshot.Leads query number placed doc d ∧ d.joinKey field = bound.key keyField hit.doc ∧
                  clause.Reads f bound own hit (d.field? f.field) := by
  intro snapshot
  refine ⟨fun number i placed hplaced => lt_length_takeWhile_placeFrom hplaced number,
    fun i segment hsegment => Snapshot.exists_placed hsize hsegment,
    fun number => Snapshot.locate_eq_none, fun query => ⟨fun e he => ?_, fun ranks ratio => ⟨?_, ?_, ?_⟩,
      fun field table htable f keyField clause hclause => key_of_table htable hclause⟩⟩
  · obtain ⟨d, hleads, -⟩ := leads_of_mem_offers he
    exact ⟨d, hleads⟩
  · exact fun limit hits => leads_of_mostRelevant ranks ratio limit
  · exact fun clauses limit page => leads_of_firstInOrder ranks ratio limit clauses
  · exact fun field limit budget r => leads_of_collapsing ranks ratio limit hsize field budget

end OfSegments

/-- A box of labelled documents. -/
def box (identity : Nat) (docs : List Document) : Segment :=
  .indexed (IndexedSegment.create "stock" docs ⟨identity⟩).1

theorem identity_box (identity : Nat) (docs : List Document) :
    (box identity docs).identity = ⟨identity⟩ := rfl

/-- The second box and the last one are not empty. -/
def boxes : List Segment :=
  [box 1 [], box 2 [⟨"s0", .ofList [("K", .int 1), ("label", .text "jam")]⟩], box 3 [], box 4 [],
    box 5 [⟨"s1", .ofList [("K", .int 7), ("label", .text "tea")]⟩, ⟨"s2", .ofList [("K", .int 7)]⟩]]

/-- What is published under the five identities. -/
def boxCatalog : Catalog := fun id => boxes.find? (·.identity = id)

theorem comesTo_boxes {B L P F : Type} {c : Collector B L P F} {fruit : F}
    (h : ((c.searchGroups ⟨1, fun _ => true⟩ [] "stock"
      [(Snapshot.ofSegments "stock" boxes).segments] .all).result ({}, c.board)).1 = .ok fruit) :
    c.ComesTo (.ofSegments "stock" boxes) .all fruit := by
  refine ⟨boxCatalog, ⟨1, fun _ => true⟩, [(Snapshot.ofSegments "stock" boxes).segments], [], {}, ?_,
    by simp, KeyColumns.sound_empty, h⟩
  simp [Snapshot.ofSegments, placeFrom, boxes, Catalog.Lists, boxCatalog, identity_box]

/-- By the label of the box. -/
def byLabel : SortField := { field := "label", valueType := .text }

/-- The documents in the boxes by their keys. -/
def boxTable : DocTable := ⟨#[none, some 0, none, none, none, none, none, some 1]⟩

/-- Number 1 is in the last box, behind three boxes that start where it does. A page has it, and so has the
table, for key 7, so it is the label in the last box that is read. -/
theorem numbers_lead_back_boxes :
    let snapshot := Snapshot.ofSegments "stock" boxes
    (∃ placed, snapshot.segments[4]? = some placed ∧ snapshot.locate 1 = some (placed, 0)) ∧
      snapshot.locate 3 = none ∧ (∃ placed doc d, snapshot.Leads .all 1 placed doc d) ∧
      ∃ clause, SortClause.related? byLabel "K" boxTable snapshot = .ok clause ∧
        clause.key { columns := fun _ => #[7] } ⟨0, 0, box 6 []⟩ ⟨0, .one⟩ =
          .ok (.text (some "tea")) := by
  intro snapshot
  obtain ⟨-, hplaces, hbeyond, hsearches⟩ := numbers_lead_back "stock" boxes (by decide +kernel)
  obtain ⟨-, hpages, htables⟩ := hsearches .all
  refine ⟨?_, hbeyond 3 (by decide +kernel), ?_, _, rfl, ?_⟩
  · obtain ⟨placed, hplaced, -, -, hnumbers⟩ := hplaces 4 _ rfl
    obtain rfl := Option.some.inj hplaced
    exact ⟨_, rfl, (hnumbers 0 (by decide +kernel)).1⟩
  · have hhits : ((mostRelevant 2).blended [] .zero).ComesTo snapshot .all [⟨0, .one⟩, ⟨1, .one⟩] :=
      comesTo_boxes (by decide +kernel)
    exact (hpages [] .zero).1 2 _ hhits ⟨1, .one⟩ (by decide)
  · have htable : (firstDocs "K").ComesTo snapshot .all boxTable := comesTo_boxes (by decide +kernel)
    obtain ⟨-, hread⟩ := htables "K" boxTable htable byLabel "K" _ rfl { columns := fun _ => #[7] }
      ⟨0, 0, box 6 []⟩ ⟨0, .one⟩
    obtain ⟨placed, doc, d, hleads, -, key, hkey, hmade⟩ := hread 1 rfl
    have hstored : snapshot.stored 1 =
        .ok ⟨"s1", .ofList [("K", .int 7), ("label", .text "tea")]⟩ := by decide +kernel
    obtain rfl := Except.ok.inj (hstored.symm.trans hleads.stored)
    rw [hkey, ← SortReading.makes_iff.mp hmade]
    rfl

end FederatedSearch
