import FederatedSearch.Proofs.Collector.JoinKeys
import FederatedSearch.Proofs.Query.Same
import Mathlib.Data.List.Nodup

/-!
# Collecting keys through the caches

The caches are sound if every column is that of its segment and every remembered key set is the
answer of its segment to the query that it is remembered for. Sound caches stay sound, whatever is
searched, evicted or dropped and whether the search fails or not, and with sound caches the keys of
a query are the keys of the matching documents.

A memory is taken out of the cache for a search and written back under its serial number. Serial
numbers are not used twice, so that it is never written back to the memory of another query.

## Main definitions

* `KeySetCache.Sound`, `Caches.Sound`

## Main results

* `KeySetCache.Sound.memoryFor`, `KeySetCache.Sound.store` — a memory, and writing it back
* `Caches.comes_collectKeys` — collecting keys through sound caches
* `Caches.comes_search_joinKeys` — collecting keys without any memory
-/

namespace FederatedSearch

/-! ### Queries that are the same -/

variable [PatternEngines]

section Same

variable {q r : Query} (h : (q == r) = true) (s : Segment) (field : String)
include h

theorem Segment.hasKey_eq_of_same : s.HasKey q field = s.HasKey r field := by
  funext key
  rw [HasKey, HasKey, s.search_eq_of_same h]

theorem Segment.answers_iff_of_same : s.Answers q field ↔ s.Answers r field := by
  constructor
  · rintro ⟨hread, hadmit⟩
    exact ⟨hread, by rwa [← s.search_eq_of_same h]⟩
  · rintro ⟨hread, hadmit⟩
    exact ⟨hread, by rwa [s.search_eq_of_same h]⟩

theorem SegmentKeys.Sound.of_same {catalog : Catalog} {m : SegmentKeys}
    (hm : m.Sound catalog q field) : m.Sound catalog r field := by
  intro e he
  obtain ⟨s, hs, hanswers, hkeys⟩ := hm e he
  refine ⟨s, hs, (s.answers_iff_of_same h field).mp hanswers, ?_⟩
  rwa [← s.hasKey_eq_of_same h]

end Same

theorem SegmentKeys.Sound.extend {catalog larger : Catalog} {query : Query} {field : String}
    {m : SegmentKeys} (h : m.Sound catalog query field) (hext : catalog.IsExtendedBy larger) :
    m.Sound larger query field :=
  SegmentMap.Sound.extend h hext

/-! ### The memories of the queries -/

namespace KeySetCache

/-- Each memory has the answers to its query, and no two memories have one serial number. -/
structure Sound (catalog : Catalog) (c : KeySetCache) : Prop where
  keys : ∀ r ∈ c.recent, r.keys.Sound catalog r.query r.field
  used : ∀ r ∈ c.recent, r.serial < c.nextSerial
  distinct : (c.recent.map (·.serial)).Nodup

variable {catalog : Catalog} {c : KeySetCache}

theorem sound_empty (capacity : Nat) : (empty capacity).Sound catalog :=
  ⟨nofun, nofun, List.nodup_nil⟩

theorem Sound.extend {larger : Catalog} (h : c.Sound catalog)
    (hext : catalog.IsExtendedBy larger) : c.Sound larger :=
  ⟨fun r hr => (h.keys r hr).extend hext, h.used, h.distinct⟩

/-- Some memories may go. -/
theorem Sound.sublist (h : c.Sound catalog) {recent : List RememberedKeys}
    (hsub : recent.Sublist c.recent) : Sound catalog { c with recent } :=
  ⟨fun r hr => h.keys r (hsub.subset hr), fun r hr => h.used r (hsub.subset hr),
    h.distinct.sublist (hsub.map _)⟩

/-- A memory may be put in front of the others if none of them has its serial number. -/
theorem Sound.cons (h : c.Sound catalog) {r : RememberedKeys}
    (hkeys : r.keys.Sound catalog r.query r.field) {next : Nat} (hnext : c.nextSerial ≤ next)
    (hused : r.serial < next) (hnew : ∀ s ∈ c.recent, s.serial ≠ r.serial) :
    Sound catalog { c with recent := r :: c.recent, nextSerial := next } := by
  refine ⟨List.forall_mem_cons.mpr ⟨hkeys, h.keys⟩, List.forall_mem_cons.mpr ⟨hused, fun s hs => ?_⟩, ?_⟩
  · exact Nat.lt_of_lt_of_le (h.used s hs) hnext
  · rw [List.map_cons, List.nodup_cons]
    refine ⟨fun hmem => ?_, h.distinct⟩
    obtain ⟨s, hs, hserial⟩ := List.mem_map.mp hmem
    exact hnew s hs hserial

/-- The memory of a query has answers to that query, and what carries its serial number in the cache
belongs to the query. -/
theorem Sound.memoryFor (h : c.Sound catalog) (query : Query) (field : String) :
    (c.memoryFor query field).1.keys.Sound catalog query field ∧
      (c.memoryFor query field).2.Sound catalog ∧
        ∀ r ∈ (c.memoryFor query field).2.recent, r.serial = (c.memoryFor query field).1.serial →
          (r.query == query) = true ∧ r.field = field := by
  rw [KeySetCache.memoryFor]
  split
  · rename_i r hfind
    have hr : r ∈ c.recent := List.mem_of_find?_eq_some hfind
    have hpair : (r.query == query) = true ∧ r.field = field := by
      simpa using List.find?_some hfind
    have hothers : ∀ s ∈ c.recent.filter (fun s => !(s.query == query && s.field == field)),
        s.serial ≠ r.serial := by
      intro s hs hserial
      obtain ⟨hs, hnot⟩ := List.mem_filter.mp hs
      obtain rfl : s = r := List.inj_on_of_nodup_map h.distinct hs hr hserial
      simp [hpair] at hnot
    refine ⟨hpair.2 ▸ (h.keys r hr).of_same hpair.1 r.field, ?_, fun s hs hserial => ?_⟩
    · exact (h.sublist List.filter_sublist).cons (h.keys r hr) (Nat.le_refl _) (h.used r hr) hothers
    · rcases List.mem_cons.mp hs with rfl | hs
      · exact hpair
      · exact absurd hserial (hothers s hs)
  · -- a new memory, which may be gone again if the cache has room for none
    have hnew : ∀ s ∈ c.recent, s.serial ≠ c.nextSerial := fun s hs => Nat.ne_of_lt (h.used s hs)
    refine ⟨SegmentKeys.sound_empty, ?_, fun r hr hserial => ?_⟩
    · have hcons := h.cons (r := ⟨query, field, c.nextSerial, {}⟩) SegmentKeys.sound_empty
        (Nat.le_succ _) (Nat.lt_succ_self _) hnew
      exact hcons.sublist (List.take_sublist _ _)
    · rcases List.mem_cons.mp (List.mem_of_mem_take hr) with rfl | hr
      · exact ⟨Query.same_refl query, rfl⟩
      · exact absurd hserial (hnew r hr)

/-- Writing back answers to a query, where the serial number belongs to that query. -/
theorem Sound.store (h : c.Sound catalog) {query : Query} {field : String} {serial : Nat}
    (hserial : ∀ r ∈ c.recent, r.serial = serial → (r.query == query) = true ∧ r.field = field)
    {keys : SegmentKeys} (hkeys : keys.Sound catalog query field) (stats : CacheStats) :
    (c.store serial keys stats).Sound catalog := by
  have hkept : (c.store serial keys stats).recent.map (·.serial) = c.recent.map (·.serial) := by
    rw [KeySetCache.store, List.map_map]
    refine List.map_congr_left fun r _ => ?_
    simp only [Function.comp_apply]
    split <;> rfl
  refine ⟨fun r hr => ?_, fun r hr => ?_, hkept ▸ h.distinct⟩
  · obtain ⟨old, hold, rfl⟩ := List.mem_map.mp hr
    split
    · rename_i heq
      obtain ⟨hsame, hfield⟩ := hserial old hold heq
      subst hfield
      exact hkeys.of_same (Query.same_symm hsame) old.field
    · exact h.keys old hold
  · have hmem : r.serial ∈ c.recent.map (·.serial) := hkept ▸ List.mem_map_of_mem hr
    obtain ⟨old, hold, heq⟩ := List.mem_map.mp hmem
    exact heq ▸ h.used old hold

end KeySetCache

/-! ### Both caches -/

namespace Caches

/-- Everything that is remembered is true of the segments in the catalog. -/
structure Sound (catalog : Catalog) (c : Caches) : Prop where
  columns : c.columns.Sound catalog
  keySets : c.keySets.Sound catalog

variable {catalog : Catalog} {c : Caches}

theorem sound_empty (queries : Nat) : (empty queries).Sound catalog :=
  ⟨KeyColumns.sound_empty, KeySetCache.sound_empty queries⟩

theorem Sound.extend {larger : Catalog} (h : c.Sound catalog) (hext : catalog.IsExtendedBy larger) :
    c.Sound larger :=
  ⟨h.columns.extend hext, h.keySets.extend hext⟩

section Collect

variable (w : Workshop) (schedule : Schedule) {snapshot : Snapshot}
  (hlists : ∀ placed ∈ snapshot.segments, catalog.Lists placed.segment) (query : Query) (field : String)
include hlists

/-- **Collecting keys through sound caches** gives the keys of all matching documents, or there is a
segment that cannot answer. The caches stay sound either way. -/
theorem comes_collectKeys :
    (Caches.collectKeys w schedule snapshot query field).Comes (Caches.Sound catalog)
      (fun bits => Answered query field snapshot.segments (bits.contains · = true))
      fun _ => ∃ placed ∈ snapshot.segments, ¬ placed.segment.Answers query field := by
  intro c hc
  obtain ⟨hkeys, hcache, hserial⟩ := hc.keySets.memoryFor query field
  rcases hmemory : c.keySets.memoryFor query field with ⟨remembered, keySets⟩
  rw [hmemory] at hkeys hcache hserial
  obtain ⟨⟨hcolumns, hkept⟩, hends⟩ :=
    (gathersKeys_remembered w.live query field ⟨remembered.keys, keySets.stats⟩ catalog).searchOn
      (modest_remembered w.live field ⟨remembered.keys, keySets.stats⟩) w hlists schedule
      (c.columns, ⟨remembered.keys, keySets.stats⟩) ⟨hc.columns, hkeys⟩
  simp only [Caches.collectKeys, Act.result_ofUpdate, hmemory]
  exact ⟨⟨hcolumns, hcache.store hserial hkept _⟩, hends⟩

/-- **Collecting keys without a memory** gives the same. -/
theorem comes_search_joinKeys :
    ((joinKeys field).search w schedule snapshot query).Comes (KeyColumns.Sound catalog)
      (fun bits => Answered query field snapshot.segments (bits.contains · = true))
      fun _ => ∃ placed ∈ snapshot.segments, ¬ placed.segment.Answers query field := by
  intro columns hcolumns
  obtain ⟨⟨hsound, -⟩, hends⟩ := (gathersKeys_joinKeys query field catalog).searchOn
    (modest_joinKeys field) w hlists schedule (columns, ()) ⟨hcolumns, trivial⟩
  exact ⟨hsound, hends⟩

end Collect

end Caches

end FederatedSearch
