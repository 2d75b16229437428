import FederatedSearch.Proofs.NameMap
import FederatedSearch.Proofs.Relation.Documents
import FederatedSearch.Request.Json

/-!
# Requests as documents

A request that holds no key set and whose numbers are finite has a document that text can express, and
reading the document gives the request back. Every entry of a request is a record of the same kind, so
what has to be shown of one is that each of its fields comes back: optional values, lists and maps do if
what is in them does.

## Main definitions

* `Request.isKeyFree` — requests without key sets
* `Request.isFinite` — requests whose numbers are finite

## Main results

* `exists_optionalJson`, `exists_listJson`, `exists_mapJson` — the collections of a request
* `Request.read_written` — a request that is written and read is the same
-/

namespace FederatedSearch

open Json (IsDocument fields? field?_cons required defaulted toText? toUInt64? toList? toMap?
  toOptional?)

/-! ### Collections -/

section Collections

variable {α β : Type} {write? : α → Option Json} {read? : Json → Option α}

/-- If each item of a list is given back from what it is turned into, so is the list. -/
theorem exists_mapM {forth : α → Option β} {back : β → Option α} (good : β → Prop) {items : List α}
    (h : ∀ a ∈ items, ∃ b, forth a = some b ∧ good b ∧ back b = some a) :
    ∃ images, items.mapM forth = some images ∧ (∀ b ∈ images, good b) ∧
      images.mapM back = some items := by
  induction items with
  | nil => exact ⟨[], rfl, by simp, rfl⟩
  | cons a items ih =>
    obtain ⟨hfirst, hrest⟩ := List.forall_mem_cons.mp h
    obtain ⟨b, hforth, hgood, hback⟩ := hfirst
    obtain ⟨images, hforths, hgoods, hbacks⟩ := ih hrest
    exact ⟨b :: images, by simp [hforth, hforths], List.forall_mem_cons.mpr ⟨hgood, hgoods⟩,
      by simp [hback, hbacks]⟩

/-- Names are kept when values are read. -/
theorem map_fst_of_mapM {members : List (String × Json)} {entries : List (String × α)}
    (h : (members.mapM fun (name, j) => (read? j).map fun a => (name, a)) = some entries) :
    members.map (·.1) = entries.map (·.1) := by
  induction members generalizing entries with
  | nil => simp at h; simp [← h]
  | cons m members ih =>
    simp only [List.mapM_cons, Option.bind_eq_bind, Option.bind_eq_some_iff, Option.map_eq_some_iff,
      Option.pure_def, Option.some.injEq] at h
    obtain ⟨_, ⟨a, _, rfl⟩, rest, hrest, rfl⟩ := h
    simp [ih hrest]

/-- An optional value comes back, since `null` is no value. -/
theorem exists_optionalJson (value : Option α) (hnull : read? .null = none)
    (h : ∀ a ∈ value, ∃ j, IsDocument write? read? a j) :
    ∃ j, IsDocument (optionalJson? write?) (toOptional? read?) value j := by
  cases value with
  | none => exact ⟨.null, rfl, rfl, rfl⟩
  | some a =>
    obtain ⟨j, hj⟩ := h a rfl
    refine ⟨j, hj.written, hj.expressible, ?_⟩
    have hread := hj.read
    cases j with
    | null => rw [hnull] at hread; cases hread
    | _ => simp [toOptional?, hread]

theorem exists_listJson {items : List α} (h : ∀ a ∈ items, ∃ j, IsDocument write? read? a j) :
    ∃ j, IsDocument (listJson? write?) (toList? read?) items j := by
  obtain ⟨images, hwritten, hexpressible, hread⟩ :=
    exists_mapM (fun j : Json => j.isExpressible = true) fun a ha =>
      (h a ha).imp fun j hj => ⟨hj.written, hj.expressible, hj.read⟩
  exact ⟨.array images, by simp [listJson?, hwritten], Json.isExpressible_array hexpressible, hread⟩

theorem exists_mapJson {m : NameMap α} (h : ∀ a ∈ m.values, ∃ j, IsDocument write? read? a j) :
    ∃ j, IsDocument (mapJson? write?) (toMap? read?) m j := by
  have hentries : ∀ e ∈ m.entries, ∃ member : String × Json,
      (write? e.2).map (fun j => (e.1, j)) = some member ∧ member.2.isExpressible = true ∧
        (read? member.2).map (fun a => (member.1, a)) = some e := by
    intro e he
    obtain ⟨j, hj⟩ := h e.2 (List.mem_map_of_mem he)
    exact ⟨(e.1, j), by simp [hj.written], hj.expressible, by simp [hj.read]⟩
  obtain ⟨members, hwritten, hexpressible, hread⟩ := exists_mapM _ hentries
  refine ⟨.object members, by simp [mapJson?, hwritten], ?_, ?_⟩
  · have hnames : members.map (·.1) = m.keys := map_fst_of_mapM hread
    exact Json.isExpressible_object (hnames ▸ m.keys_nodup) hexpressible
  · simp only [toMap?, hread, Option.bind_eq_bind, Option.bind_some, m.ofList_entries]

/-- What a writer that never fails writes for a value is read back. -/
abbrev ComesBack (write : α → Json) (read? : Json → Option α) (a : α) : Prop :=
  IsDocument (fun a => some (write a)) read? a (write a)

variable {write : α → Json}

theorem comesBack_optionalJson (value : Option α) (hnull : read? .null = none)
    (h : ∀ a ∈ value, ComesBack write read? a) :
    ComesBack (optionalJson write) (toOptional? read?) value := by
  obtain ⟨j, hj⟩ := exists_optionalJson value hnull fun a ha => ⟨write a, h a ha⟩
  have hwritten : optionalJson? (fun a => some (write a)) value = some (optionalJson write value) := by
    cases value <;> rfl
  obtain rfl : optionalJson write value = j := Option.some.inj (hwritten.symm.trans hj.written)
  exact ⟨rfl, hj.expressible, hj.read⟩

theorem comesBack_list (items : List α) (h : ∀ a ∈ items, ComesBack write read? a) :
    ComesBack (fun items => .array (items.map write)) (toList? read?) items := by
  obtain ⟨j, hj⟩ := exists_listJson fun a ha => ⟨write a, h a ha⟩
  have hmap : items.mapM (fun a => some (write a)) = some (items.map write) := List.mapM_pure
  have hwritten : listJson? (fun a => some (write a)) items = some (.array (items.map write)) := by
    rw [listJson?, hmap, Option.bind_eq_bind, Option.bind_some]
  obtain rfl : .array (items.map write) = j := Option.some.inj (hwritten.symm.trans hj.written)
  exact ⟨rfl, hj.expressible, hj.read⟩

end Collections

/-! ### Entries -/

theorem comesBack_text (s : String) : ComesBack .text toText? s := ⟨rfl, rfl, rfl⟩

theorem comesBack_single {x : Binary32} (h : x.isFinite = true) : ComesBack .single Json.toSingle? x :=
  ⟨rfl, h, rfl⟩

/-- Sizes and counts. -/
theorem comesBack_countJson (n : UInt64) : ComesBack countJson toUInt64? n :=
  ⟨rfl, Json.isExpressible_uint64 n, Json.toUInt64?_toNat n⟩

namespace FacetRequest

theorem comesBack (f : FacetRequest) : ComesBack toJson ofJson? f := by
  have hlimit := comesBack_optionalJson f.limit rfl fun n _ => comesBack_countJson n
  have hminCount := comesBack_countJson f.minCount
  refine ⟨rfl, ?_, ?_⟩
  · exact Json.isExpressible_object (by simp) (by simp [hlimit.expressible, hminCount.expressible])
  · simp [ofJson?, toJson, fields?, field?_cons, required, defaulted, toText?, hlimit.read,
      hminCount.read]

end FacetRequest

namespace CoreQuery

/-- No key set occurs in the queries of the core. -/
def isKeyFree (c : CoreQuery) : Bool :=
  c.query.all Query.isKeyFree && c.filters.all Query.isKeyFree && c.excludes.all Query.isKeyFree

theorem exists_document {c : CoreQuery} (h : c.isKeyFree = true) :
    ∃ j, IsDocument toJson? ofJson? c j := by
  simp only [isKeyFree, Bool.and_eq_true, Option.all_eq_true, List.all_eq_true] at h
  obtain ⟨⟨hquery, hfilters⟩, hexcludes⟩ := h
  obtain ⟨query, hquery⟩ := exists_optionalJson c.query rfl fun q hq =>
    Query.exists_whole (hquery q hq)
  obtain ⟨filters, hfilters⟩ := exists_listJson fun q hq => Query.exists_whole (hfilters q hq)
  obtain ⟨excludes, hexcludes⟩ := exists_listJson fun q hq => Query.exists_whole (hexcludes q hq)
  have hfacets := comesBack_list c.facets fun f _ => f.comesBack
  refine ⟨_, by simp [toJson?, hquery.written, hfilters.written, hexcludes.written]; rfl, ?_, ?_⟩
  · exact Json.isExpressible_object (by simp) (by simp [hquery.expressible, hfilters.expressible,
      hexcludes.expressible, hfacets.expressible])
  · simp [ofJson?, fields?, field?_cons, defaulted, hquery.read, hfilters.read, hexcludes.read,
      hfacets.read]

end CoreQuery

namespace Link

theorem comesBack (l : Link) : ComesBack toJson ofJson? l := by
  refine ⟨rfl, ?_, ?_⟩
  · exact Json.isExpressible_object (by simp) (by simp)
  · simp [ofJson?, toJson, fields?, field?_cons, required, toText?]

end Link

namespace Unite

/-- No key set occurs in the queries of the two parts. -/
def isKeyFree (u : Unite) : Bool := u.queryA.isKeyFree && u.queryB.isKeyFree

theorem exists_document {u : Unite} (h : u.isKeyFree = true) : ∃ j, IsDocument toJson? ofJson? u j := by
  simp only [isKeyFree, Bool.and_eq_true] at h
  obtain ⟨queryA, hqueryA⟩ := Query.exists_whole h.1
  obtain ⟨queryB, hqueryB⟩ := Query.exists_whole h.2
  refine ⟨_, by simp [toJson?, hqueryA.written, hqueryB.written]; rfl, ?_, ?_⟩
  · exact Json.isExpressible_object (by simp) (by simp [hqueryA.expressible, hqueryB.expressible])
  · simp [ofJson?, fields?, field?_cons, required, toText?, hqueryA.read, hqueryB.read]

end Unite

namespace RelationalFilter

theorem exists_document {f : RelationalFilter} (h : f.expr.isKeyFree = true) :
    ∃ j, IsDocument toJson? ofJson? f j := by
  obtain ⟨expr, hexpr⟩ := RelationalExpr.exists_whole h
  refine ⟨_, by simp [toJson?, hexpr.written]; rfl, ?_, ?_⟩
  · exact Json.isExpressible_object (by simp) (by simp [hexpr.expressible])
  · simp [ofJson?, fields?, field?_cons, required, toText?, hexpr.read]

end RelationalFilter

/-! ### Sorting -/

theorem ValueType.comesBack (v : ValueType) : ComesBack (fun v => .text v.toName) ofJson? v :=
  ⟨rfl, rfl, by cases v <;> rfl⟩

theorem SortOrder.comesBack (o : SortOrder) : ComesBack (fun o => .text o.toName) ofJson? o :=
  ⟨rfl, rfl, by cases o <;> rfl⟩

/-- The number of the policy, if it has one, is finite. -/
def MissingValue.isFinite : MissingValue → Bool
  | number x => x.isFinite
  | _ => true

theorem MissingValue.comesBack {m : MissingValue} (h : m.isFinite = true) :
    ComesBack toJson ofJson? m := by
  cases m with
  | textFirst => exact ⟨rfl, rfl, rfl⟩
  | textLast => exact ⟨rfl, rfl, rfl⟩
  | number x =>
    have hnumber : (Json.double x).isExpressible = true := h
    exact ⟨rfl, Json.isExpressible_object (by simp) (by simp [hnumber]), rfl⟩

theorem SortField.comesBack {f : SortField} (h : f.missing.isFinite = true) :
    ComesBack toJson ofJson? f := by
  have hcore := comesBack_optionalJson f.core rfl fun s _ => comesBack_text s
  have hvalueType := f.valueType.comesBack
  have horder := f.order.comesBack
  have hmissing := MissingValue.comesBack h
  refine ⟨rfl, ?_, ?_⟩
  · exact Json.isExpressible_object (by simp) (by simp [hcore.expressible, hmissing.expressible])
  · simp [ofJson?, toJson, fields?, field?_cons, defaulted, toText?, hcore.read, hvalueType.read,
      horder.read, hmissing.read]

/-! ### The request -/

namespace Request

/-- No key set occurs anywhere. -/
def isKeyFree (r : Request) : Bool :=
  r.cores.values.all CoreQuery.isKeyFree && r.unites.all Unite.isKeyFree &&
    r.relationalFilter.all (·.expr.isKeyFree) && r.rankQueries.values.all Query.isKeyFree

/-- The numbers that weigh and replace scores and values are finite. -/
def isFinite (r : Request) : Bool :=
  r.rankRatio.all Binary32.isFinite && r.sort.all (·.missing.isFinite)

/-- **What is written for a request is read as the same request**, if it holds no key set and its numbers
are finite. -/
theorem read_written (r : Request) (hkeys : r.isKeyFree = true) (hfinite : r.isFinite = true) :
    ∃ j, r.toJson? = some j ∧ j.isExpressible = true ∧ ofJson? j = some r := by
  simp only [isKeyFree, isFinite, Bool.and_eq_true, Option.all_eq_true, List.all_eq_true] at hkeys hfinite
  obtain ⟨⟨⟨hcores, hunites⟩, hfilter⟩, hranks⟩ := hkeys
  obtain ⟨cores, hcores⟩ := exists_mapJson fun c hc => CoreQuery.exists_document (hcores c hc)
  obtain ⟨unites, hunites⟩ := exists_listJson fun u hu => Unite.exists_document (hunites u hu)
  obtain ⟨filter, hfilter⟩ := exists_optionalJson r.relationalFilter rfl fun f hf =>
    RelationalFilter.exists_document (hfilter f hf)
  obtain ⟨ranks, hranks⟩ := exists_mapJson fun q hq => Query.exists_whole (hranks q hq)
  have hlinks := comesBack_list r.links fun l _ => l.comesBack
  have hratio := comesBack_optionalJson r.rankRatio rfl fun x hx =>
    comesBack_single (hfinite.1 x hx)
  have hsort := comesBack_list r.sort fun f hf => SortField.comesBack (hfinite.2 f hf)
  have hstart := comesBack_countJson r.start
  have hstop := comesBack_countJson r.stop
  have hexportKey := comesBack_optionalJson r.exportKey rfl fun s _ => comesBack_text s
  have hcollapse := comesBack_optionalJson r.collapse rfl fun s _ => comesBack_text s
  refine ⟨_, by simp [toJson?, hcores.written, hunites.written, hfilter.written, hranks.written]; rfl,
    ?_, ?_⟩
  · refine Json.isExpressible_object (by simp) ?_
    simp [hcores.expressible, hlinks.expressible, hunites.expressible, hfilter.expressible,
      hranks.expressible, hratio.expressible, hsort.expressible, hstart.expressible,
      hstop.expressible, hexportKey.expressible, hcollapse.expressible]
  · simp [ofJson?, fieldNames, fields?, field?_cons, required, defaulted, toText?, hcores.read,
      hlinks.read, hunites.read, hfilter.read, hranks.read, hratio.read, hsort.read, hstart.read,
      hstop.read, hexportKey.read, hcollapse.read]

/-- A request with a query inside a query, an expression inside an expression, and numbers. -/
def nested : Request where
  resultsFrom := "track"
  cores := .ofList [("album", { query := some (.term "label" "blue"), facets := [{ field := "year" }] }),
    ("track", { filters := [.bool [.range "year" (some (-1)) none] [] [] [.bool [.all] [] [] []]] })]
  links := [⟨"album", "track", "track_key"⟩]
  unites := [⟨"album", .wildcard "title" "a*", "track", .present "title"⟩]
  relationalFilter := some ⟨"key", .and (.leaf "album" .all "track_key")
    (.not (.leaf "album" (.regex "title" "b+") "track_key"))⟩
  rankQueries := .ofList [("album", .all)]
  rankRatio := some ⟨0x3F000000⟩
  sort := [{ field := "year", valueType := .double, missing := .number ⟨0xBFF0000000000000⟩ }]
  start := 10
  stop := 20

theorem read_written_nested :
    nested.isKeyFree = true ∧ nested.isFinite = true ∧
      ∃ j, nested.toJson? = some j ∧ j.isExpressible = true ∧ ofJson? j = some nested :=
  ⟨by decide, by decide, read_written nested (by decide) (by decide)⟩

end Request

end FederatedSearch
