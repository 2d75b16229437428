import FederatedSearch.Proofs.NameMap
import FederatedSearch.Request.Basic

/-!
# Requests with decorations

Facets, sort fields, rank queries and an exported key are decorations of a request: they are not meant
to filter. Other cores may have to be listed and linked for them.

## Main definitions

* `Request.Decorates` — a request with decorations

## Main results

* `Request.decorates_facet`, `Request.decorates_sortBy`, … — the ways to decorate a request
* `Request.Decorates.keyField`, `Request.Decorates.referencedCores_subset` — what stays
-/

namespace FederatedSearch

/-- The same is asked of a core, with more facets. -/
structure CoreQuery.Decorates (core' core : CoreQuery) : Prop where
  query : core'.query = core.query
  filters : core'.filters = core.filters
  excludes : core'.excludes = core.excludes
  facets : core.facets ⊆ core'.facets

namespace CoreQuery

theorem Decorates.refl (core : CoreQuery) : core.Decorates core := ⟨rfl, rfl, rfl, List.Subset.refl _⟩

theorem Decorates.trans {core core' core'' : CoreQuery} (h' : core''.Decorates core')
    (h : core'.Decorates core) : core''.Decorates core where
  query := h'.query.trans h.query
  filters := h'.filters.trans h.filters
  excludes := h'.excludes.trans h.excludes
  facets := List.Subset.trans h.facets h'.facets

theorem Decorates.fullQuery_eq {core' core : CoreQuery} (h : core'.Decorates core) :
    core'.fullQuery = core.fullQuery := by
  rw [fullQuery, fullQuery, primary, primary, h.query, h.filters, h.excludes]

end CoreQuery

/-- The request asks for the same, with more facets, sort fields and rank queries and with any export
key. Cores are listed and linked for that, but nothing else is asked of them. -/
structure Request.Decorates (r' r : Request) : Prop where
  resultsFrom : r'.resultsFrom = r.resultsFrom
  listed : r.cores.keys ⊆ r'.cores.keys
  cores : ∀ name, (r'.core name).Decorates (r.core name)
  links : r.links <+: r'.links
  unites : r'.unites = r.unites
  relationalFilter : r'.relationalFilter = r.relationalFilter
  rankQueries : r.rankQueries.keys ⊆ r'.rankQueries.keys
  rankRatio : r'.rankRatio = r.rankRatio
  sort : r.sort ⊆ r'.sort
  start : r'.start = r.start
  stop : r'.stop = r.stop
  collapse : r'.collapse = r.collapse

namespace Request

/-! ### Ways to decorate a request -/

theorem core_updateCore (r : Request) (name other : String) (f : CoreQuery → CoreQuery) :
    (r.updateCore name f).core other = if name = other then f (r.core name) else r.core other := by
  rw [core, updateCore, NameMap.find?_update]
  split <;> rfl

theorem Decorates.refl (r : Request) : r.Decorates r where
  resultsFrom := rfl
  listed := List.Subset.refl _
  cores _ := .refl _
  links := List.prefix_rfl
  unites := rfl
  relationalFilter := rfl
  rankQueries := List.Subset.refl _
  rankRatio := rfl
  sort := List.Subset.refl _
  start := rfl
  stop := rfl
  collapse := rfl

theorem Decorates.trans {r r' r'' : Request} (h' : r''.Decorates r') (h : r'.Decorates r) :
    r''.Decorates r where
  resultsFrom := h'.resultsFrom.trans h.resultsFrom
  listed := List.Subset.trans h.listed h'.listed
  cores name := (h'.cores name).trans (h.cores name)
  links := h.links.trans h'.links
  unites := h'.unites.trans h.unites
  relationalFilter := h'.relationalFilter.trans h.relationalFilter
  rankQueries := List.Subset.trans h.rankQueries h'.rankQueries
  rankRatio := h'.rankRatio.trans h.rankRatio
  sort := List.Subset.trans h.sort h'.sort
  start := h'.start.trans h.start
  stop := h'.stop.trans h.stop
  collapse := h'.collapse.trans h.collapse

section Ways

variable (r : Request)

theorem decorates_updateCore (name : String) {f : CoreQuery → CoreQuery}
    (h : (f (r.core name)).Decorates (r.core name)) : (r.updateCore name f).Decorates r where
  __ := Decorates.refl r
  listed other hother := by
    rw [NameMap.mem_keys_iff] at hother ⊢
    rw [updateCore, NameMap.find?_update]
    split
    · rfl
    · exact hother
  cores other := by
    rw [core_updateCore]
    split
    · rename_i heq
      exact heq ▸ h
    · exact .refl _

/-- A core can be listed without asking anything of it. -/
theorem decorates_participate (name : String) : (r.participate name).Decorates r :=
  r.decorates_updateCore name (.refl _)

theorem decorates_facet (name : String) (f : FacetRequest) : (r.facet name f).Decorates r :=
  r.decorates_updateCore name ⟨rfl, rfl, rfl, List.subset_append_left _ _⟩

theorem decorates_join (a aField b bField : String) : (r.join a aField b bField).Decorates r where
  __ := Decorates.refl r
  links := List.prefix_append _ _

theorem decorates_rank (name : String) (q : Query) : (r.rank name q).Decorates r where
  __ := Decorates.refl r
  rankQueries other hother := by
    rw [NameMap.mem_keys_iff] at hother ⊢
    rw [rank, NameMap.find?_insert]
    split
    · rfl
    · exact hother

theorem decorates_sortBy (f : SortField) : (r.sortBy f).Decorates r where
  __ := Decorates.refl r
  sort := List.subset_append_left _ _

theorem decorates_exporting (field : String) : (r.exporting field).Decorates r where
  __ := Decorates.refl r

end Ways

/-! ### What stays -/

theorem mem_otherCores {r : Request} {name : String} {core : CoreQuery} :
    (name, core) ∈ r.otherCores ↔
      name ∈ r.cores.keys ∧ name ≠ r.resultsFrom ∧ core = r.core name := by
  rw [otherCores, List.mem_filter, decide_eq_true_eq, NameMap.mem_entries_iff, NameMap.mem_keys_iff,
    Request.core]
  constructor
  · rintro ⟨hfind, hne⟩
    rw [hfind]
    exact ⟨rfl, hne, rfl⟩
  · rintro ⟨hsome, hne, hcore⟩
    obtain ⟨found, hfind⟩ := Option.isSome_iff_exists.mp hsome
    rw [hfind] at hcore
    obtain rfl : core = found := hcore
    exact ⟨hfind, hne⟩

theorem mem_referencedCores_of_listed {r : Request} {name : String} (h : name ∈ r.cores.keys) :
    name ∈ r.referencedCores := by
  rw [referencedCores, NameMap.mem_keys_ofList]
  simp [h]

theorem mem_referencedCores_of_unite {r : Request} {u : Unite} (h : u ∈ r.unites) :
    u.coreA ∈ r.referencedCores ∧ u.coreB ∈ r.referencedCores := by
  have hside : ∀ name ∈ [u.coreA, u.coreB], name ∈ r.unites.flatMap fun u => [u.coreA, u.coreB] :=
    fun name hname => List.mem_flatMap.mpr ⟨u, h, hname⟩
  rw [referencedCores, NameMap.mem_keys_ofList, NameMap.mem_keys_ofList, List.map_map]
  simp only [Function.comp_def, List.map_id', List.mem_append]
  exact ⟨.inl (.inl (.inl (.inr (hside _ (by simp))))), .inl (.inl (.inl (.inr (hside _ (by simp)))))⟩

theorem mem_referencedCores_of_relational {r : Request} {filter : RelationalFilter}
    (h : r.relationalFilter = some filter) {name : String} (hname : name ∈ filter.expr.cores) :
    name ∈ r.referencedCores := by
  rw [referencedCores, NameMap.mem_keys_ofList]
  simp [h, hname]

/-- Nothing is asked of a core that is not listed. -/
theorem core_eq_of_not_listed {r : Request} {name : String} (h : name ∉ r.cores.keys) :
    r.core name = {} := by
  rw [NameMap.mem_keys_iff, Bool.not_eq_true, Option.isSome_eq_false_iff, Option.isNone_iff_eq_none] at h
  rw [core, h]
  rfl

namespace Decorates

variable {r' r : Request} (h : r'.Decorates r)
include h

theorem keyField {source target field : String} (hfield : r.keyField source target = .ok field) :
    r'.keyField source target = .ok field := by
  obtain ⟨more, hmore⟩ := h.links
  rw [Request.keyField] at hfield ⊢
  rw [← hmore, List.find?_append]
  split at hfield
  · rename_i link hlink
    rw [hlink]
    exact hfield
  · exact nomatch hfield

theorem referencedCores_subset : r.referencedCores ⊆ r'.referencedCores := by
  intro name hname
  rw [referencedCores, NameMap.mem_keys_ofList, List.map_map] at hname ⊢
  simp only [Function.comp_def, List.map_id', List.mem_append, List.mem_flatMap,
    List.mem_filterMap] at hname ⊢
  rw [h.resultsFrom, h.unites, h.relationalFilter]
  rcases hname with (((((hname | hname) | ⟨link, hlink, hname⟩) | hname) | hname) | ⟨f, hf, hname⟩) | hname
  · exact .inl (.inl (.inl (.inl (.inl (.inl hname)))))
  · exact .inl (.inl (.inl (.inl (.inl (.inr (h.listed hname))))))
  · exact .inl (.inl (.inl (.inl (.inr ⟨link, h.links.subset hlink, hname⟩))))
  · exact .inl (.inl (.inl (.inr hname)))
  · exact .inl (.inl (.inr (h.rankQueries hname)))
  · exact .inl (.inr ⟨f, h.sort hf, hname⟩)
  · exact .inr hname

end Decorates

end Request

end FederatedSearch
