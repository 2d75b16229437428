import FederatedSearch.Proofs.Act.Mirrors
import FederatedSearch.Proofs.Keys.Membership
import FederatedSearch.Proofs.Search.Reading

/-!
# The join keys of the matches

Collecting join keys gives the keys of the live documents that match, and it fails if some segment
cannot answer: because a pattern in the query is bad, because the segment cannot be read, or because
a match has a key that no bitset admits.

What is remembered for a query and a field is sound if the keys kept for a segment are the keys of
its matches. A segment that is skipped then adds what it would have added had it been searched, and
a segment is remembered only when it was searched to its end.

## Main definitions

* `Segment.Answers`, `Segment.HasKey` — when a segment can answer, and what it answers
* `SegmentKeys.Sound` — the remembered keys are the answers of the segments
* `Collector.GathersKeys` — the collector takes in the answer of each segment

## Main results

* `gathersKeys_joinKeys`, `gathersKeys_remembered` — both collectors do, whatever is remembered
* `GathersKeys.searchGroups` — the keys of all segments, or a segment that cannot answer
-/

namespace FederatedSearch

/-! ### The answer of a segment -/

namespace Segment

variable [PatternEngines] (s : Segment) (query : Query) (field : String)

/-- Some live document that matches the query has this key in the field. Key 0 is no key. -/
def HasKey (key : JoinKey) : Prop :=
  key ≠ noKey ∧ ∃ hits, s.search query true = .ok hits ∧ ∃ hit ∈ hits, (s.column field).key hit.doc = key

/-- The segment can be read and searched, and the keys of all matches are admitted. -/
structure Answers : Prop where
  readable : ∃ column, s.joinKeys field = .ok column
  admitted : ∃ hits, s.search query true = .ok hits ∧ ∀ hit ∈ hits, (s.column field).key hit.doc ≤ maxKey

end Segment

/-- All these segments can answer, and `found` are the keys that they answer. -/
structure Answered [PatternEngines] (query : Query) (field : String) (segments : List Placed)
    (found : Nat → Prop) :
    Prop where
  answers : ∀ placed ∈ segments, placed.segment.Answers query field
  found_iff : ∀ key, found key ↔ ∃ placed ∈ segments, placed.segment.HasKey query field key

namespace Answered

variable [PatternEngines] {query : Query} {field : String} {segments others : List Placed}
  {found more : Nat → Prop}

theorem nil : Answered query field [] fun _ => False := ⟨by simp, by simp⟩

theorem append (h : Answered query field segments found) (h' : Answered query field others more) :
    Answered query field (segments ++ others) fun key => found key ∨ more key := by
  refine ⟨fun placed hmem => ?_, fun key => ?_⟩
  · rcases List.mem_append.mp hmem with hmem | hmem
    · exact h.answers placed hmem
    · exact h'.answers placed hmem
  · simp only [h.found_iff, h'.found_iff, List.mem_append, or_and_right, exists_or]

theorem singleton {placed : Placed} (h : placed.segment.Answers query field) :
    Answered query field [placed] (placed.segment.HasKey query field) :=
  ⟨by simpa using h, by simp⟩

theorem perm (h : Answered query field segments found) (hperm : segments.Perm others) :
    Answered query field others found :=
  ⟨fun placed hmem => h.answers placed (hperm.mem_iff.mpr hmem), fun key => by
    rw [h.found_iff]
    simp only [hperm.mem_iff]⟩

theorem congr (h : Answered query field segments found) (hiff : ∀ key, more key ↔ found key) :
    Answered query field segments more :=
  ⟨h.answers, fun key => (hiff key).trans (h.found_iff key)⟩

end Answered

/-! ### Adding keys -/

namespace KeysSoFar

theorem add?_of_le {k : KeysSoFar} (hopen : k.isOpen = true) {key : Nat} (hkey : key ≤ maxKey) :
    ∃ current, k.add? key = .ok { k with current } ∧ ∀ other : Nat,
      current.contains other = true ↔ (other ≠ noKey ∧ other = key) ∨ k.current.contains other = true := by
  by_cases h0 : key = noKey
  · refine ⟨k.current, by simp [add?, h0]; rfl, fun other => ?_⟩
    constructor
    · exact .inr
    · rintro (⟨hne, rfl⟩ | h)
      · exact absurd h0 hne
      · exact h
  · refine ⟨k.current.set key, ?_, fun other => ?_⟩
    · rw [add?, hopen, KeyBits.insert?_eq_ok h0 hkey]
      simp [h0]
    · simp only [KeyBits.contains_set, Bool.or_eq_true, decide_eq_true_eq]
      constructor
      · rintro (rfl | h)
        · exact .inl ⟨h0, rfl⟩
        · exact .inr h
      · rintro (⟨-, h⟩ | h)
        · exact .inl h
        · exact .inr h

theorem add?_of_lt {k : KeysSoFar} (hopen : k.isOpen = true) {key : Nat} (hkey : maxKey < key) :
    k.add? key = .error (.keyTooLarge (.bitset key maxKey)) := by
  have h0 : key ≠ noKey := Nat.ne_zero_of_lt hkey
  rw [add?, hopen, KeyBits.insert?_eq_error hkey]
  simp [h0]

/-- Adding keys that are all admitted adds those that are keys. -/
theorem foldlM_add?_of_le {keys : List Nat} (hkeys : ∀ key ∈ keys, key ≤ maxKey) {k : KeysSoFar}
    (hopen : k.isOpen = true) :
    ∃ current, keys.foldlM add? k = .ok { k with current } ∧ ∀ key : Nat,
      current.contains key = true ↔ (key ≠ noKey ∧ key ∈ keys) ∨ k.current.contains key = true := by
  induction keys generalizing k with
  | nil => exact ⟨k.current, rfl, by simp⟩
  | cons key keys ih =>
    obtain ⟨first, hfirst, hmem⟩ := add?_of_le hopen (hkeys key List.mem_cons_self)
    obtain ⟨current, hrest, hall⟩ := ih (k := { k with current := first })
      (fun other h => hkeys other (List.mem_cons_of_mem _ h)) hopen
    refine ⟨current, by rw [List.foldlM_cons, hfirst, ok_bind, hrest], fun other => ?_⟩
    rw [hall, hmem, List.mem_cons]
    tauto

/-- A key that is not admitted makes the adding fail. -/
theorem foldlM_add?_of_lt {keys : List Nat} (hkeys : ∃ key ∈ keys, maxKey < key) {k : KeysSoFar}
    (hopen : k.isOpen = true) : ∃ failure, keys.foldlM add? k = .error failure := by
  induction keys generalizing k with
  | nil => simp at hkeys
  | cons key keys ih =>
    rw [List.foldlM_cons]
    rcases Nat.lt_or_ge maxKey key with hkey | hkey
    · exact ⟨_, by rw [add?_of_lt hopen hkey, error_bind]⟩
    · obtain ⟨current, hfirst, -⟩ := add?_of_le hopen hkey
      obtain ⟨other, hmem, hlt⟩ := hkeys
      have hrest : other ∈ keys := by
        rcases List.mem_cons.mp hmem with rfl | hmem
        · exact absurd hkey (Nat.not_le.mpr hlt)
        · exact hmem
      obtain ⟨failure, herr⟩ := ih ⟨other, hrest, hlt⟩ (k := { k with current }) hopen
      exact ⟨failure, by rw [hfirst, ok_bind, herr]⟩

theorem contains_unite (groups : List KeyBits) (key : Nat) :
    (unite groups).contains key = true ↔ ∃ bits ∈ groups, bits.contains key = true := by
  have hfold : ∀ start : KeyBits, (groups.foldl .union start).contains key = true ↔
      start.contains key = true ∨ ∃ bits ∈ groups, bits.contains key = true := by
    induction groups with
    | nil => simp
    | cons bits groups ih =>
      intro start
      rw [List.foldl_cons, ih, KeyBits.contains_union, Bool.or_eq_true, List.exists_mem_cons_iff, or_assoc]
  rw [unite, hfold]
  simp

end KeysSoFar

/-! ### Taking in the answers of segments -/

variable [PatternEngines]

namespace Collector

/-- From a board for which `inv` holds, and as long as others keep `inv`, the collector takes in the answer
of each segment of the catalog, or it fails because the segment cannot answer. It keeps `inv` itself. -/
structure GathersKeys {B : Type} (c : Collector B KeysSoFar KeyBits KeyBits) (catalog : Catalog)
    (query : Query) (field : String) (inv : B → Prop) : Prop where
  start : c.start = pure {}
  finish : ∀ k, c.finish k = pure k.found
  merge : ∀ board partials, c.merge board partials = .ok (KeysSoFar.unite partials)
  segment : ∀ placed, catalog.Lists placed.segment → ∀ k s, inv s →
    (c.readSegment query k placed).Ensures (.keeping inv)
      (fun k' _ => placed.segment.Answers query field ∧ ∀ key : Nat,
        k'.found.contains key = true ↔
          k.found.contains key = true ∨ placed.segment.HasKey query field key)
      (fun _ => ¬ placed.segment.Answers query field) s

section GathersKeys

variable {B : Type} {c : Collector B KeysSoFar KeyBits KeyBits} {catalog : Catalog} {query : Query}
  {field : String} {inv : B → Prop} (h : c.GathersKeys catalog query field inv)
include h

theorem GathersKeys.ensures_readGroup {group : List Placed}
    (hlists : ∀ placed ∈ group, catalog.Lists placed.segment) {s : B} (hs : inv s) :
    (c.readGroup query group).Ensures (.keeping inv)
      (fun bits _ => Answered query field group (bits.contains · = true))
      (fun _ => ∃ placed ∈ group, ¬ placed.segment.Answers query field) s := by
  have hloop : (group.foldlM (c.readSegment query) {}).Ensures (.keeping inv)
      (fun k _ => Answered query field group (k.found.contains · = true))
      (fun _ => ∃ placed ∈ group, ¬ placed.segment.Answers query field) s := by
    refine Process.ensures_foldlM
      (fun done (k : KeysSoFar) _ => Answered query field done (k.found.contains · = true))
      (fun done placed hmem k t hst hdone => ?_) [] (Answered.nil.congr (by simp))
    refine (h.segment placed (hlists placed hmem) k t (hst hs)).mono ?_ fun _ hcannot =>
      ⟨placed, hmem, hcannot⟩
    rintro k' u - ⟨hanswers, hkeys⟩
    exact (hdone.append (.singleton hanswers)).congr hkeys
  rw [readGroup, h.start, pure_bind]
  refine hloop.bind fun k t _ hk => ?_
  rw [h.finish]
  exact Process.ensures_pure hk

/-- **The merge** of the keys of groups. -/
theorem GathersKeys.merge_answered {groups : List (List Placed)} {partials : List KeyBits}
    (hall : List.Forall₂ (fun group bits => Answered query field group (bits.contains · = true))
      groups partials) (board : B) (bad : Failure → Prop) :
    Meets (fun bits : KeyBits => Answered query field groups.flatten (bits.contains · = true)) bad
      (c.merge board partials) := by
  have hfound : Answered query field groups.flatten
      fun key => ∃ bits ∈ partials, bits.contains key = true := by
    induction hall with
    | nil => exact Answered.nil.congr (by simp)
    | cons hfirst _ ih =>
      rw [List.flatten_cons]
      exact (hfirst.append ih).congr fun key => List.exists_mem_cons_iff ..
  rw [h.merge]
  exact hfound.congr fun key => KeysSoFar.contains_unite partials key

/-- **Collecting join keys** gives the keys of all segments, or there is a segment that cannot
answer. Either way the columns stay sound and what is known of the board is kept. -/
theorem GathersKeys.searchGroups {view : KeysSoFar → List String} (hmodest : c.Modest view) (w : Workshop)
    {groups : List (List Placed)} (hlists : ∀ placed ∈ groups.flatten, catalog.Lists placed.segment)
    (schedule : Schedule) (core : String) :
    (c.searchGroups w schedule core groups query).Comes
      (fun t => KeyColumns.Sound catalog t.1 ∧ inv t.2)
      (fun bits => Answered query field groups.flatten (bits.contains · = true))
      fun _ => ∃ placed ∈ groups.flatten, ¬ placed.segment.Answers query field := by
  rintro s ⟨hcolumns, hboard⟩
  have hlists' : ∀ group ∈ groups, ∀ placed ∈ group, catalog.Lists placed.segment :=
    fun group hgroup placed hmem => hlists placed (List.mem_flatten.mpr ⟨group, hgroup, hmem⟩)
  have hgroups : ∀ group ∈ groups, (c.readGroup query group).Ensures (.keeping inv)
      (fun bits _ => Answered query field group (bits.contains · = true))
      (fun _ => ∃ placed ∈ groups.flatten, ¬ placed.segment.Answers query field) s.2 := by
    refine fun group hgroup => (h.ensures_readGroup (hlists' group hgroup) hboard).mono
      (fun _ _ _ h => h) ?_
    rintro _ ⟨placed, hmem, hcannot⟩
    exact ⟨placed, List.mem_flatten.mpr ⟨group, hgroup, hmem⟩, hcannot⟩
  obtain ⟨hsound, hmay, hends⟩ := hmodest.ensures_searchGroups w query hlists' hcolumns schedule
    hgroups (fun _ _ _ _ _ h => h) (fun t partials _ hall => h.merge_answered hall t _)
    (fun _ _ _ => trivial)
  exact ⟨⟨hsound, hmay hboard⟩, hends⟩

theorem GathersKeys.searchOn {view : KeysSoFar → List String} (hmodest : c.Modest view) (w : Workshop)
    {snapshot : Snapshot} (hlists : ∀ placed ∈ snapshot.segments, catalog.Lists placed.segment)
    (schedule : Schedule) :
    (c.searchOn w schedule snapshot query).Comes (fun t => KeyColumns.Sound catalog t.1 ∧ inv t.2)
      (fun bits => Answered query field snapshot.segments (bits.contains · = true))
      fun _ => ∃ placed ∈ snapshot.segments, ¬ placed.segment.Answers query field := by
  have hperm := flatten_groupsOf_perm w snapshot
  refine (h.searchGroups hmodest w (fun placed hmem => hlists placed (hperm.mem_iff.mp hmem)) schedule
    snapshot.core).mono (fun bits hfound => hfound.perm hperm) ?_
  rintro _ ⟨placed, hmem, hcannot⟩
  exact ⟨placed, hperm.mem_iff.mp hmem, hcannot⟩

end GathersKeys

end Collector

/-! ### Searching a segment for keys -/

namespace KeysSoFar

/-- Read a segment and add the keys of its matches. -/
def searchSegment (s : Segment) (query : Query) (field : String) (k : KeysSoFar) :
    Except Failure KeysSoFar := do
  let _ ← readColumns s [field]
  let hits ← s.search query true
  (hits.map fun hit => (s.column field).key hit.doc).foldlM add? k

omit [PatternEngines] in
theorem readColumns_singleton {s : Segment} {field : String} {column : KeyColumn}
    (h : s.joinKeys field = .ok column) : readColumns s [field] = .ok [(field, column)] := by
  rw [readColumns_cons, h]
  rfl

variable {s : Segment} {query : Query} {field : String} {k : KeysSoFar}

theorem searchSegment_of_answers (h : s.Answers query field) (hopen : k.isOpen = true)
    (hcurrent : k.current = .empty) :
    ∃ current, searchSegment s query field k = .ok { k with current } ∧
      ∀ key : Nat, current.contains key = true ↔ s.HasKey query field key := by
  obtain ⟨column, hcolumn⟩ := h.readable
  obtain ⟨hits, hhits, hle⟩ := h.admitted
  have hkeys : ∀ key ∈ hits.map (fun hit => (s.column field).key hit.doc), key ≤ maxKey := by
    intro key hmem
    obtain ⟨hit, hhit, rfl⟩ := List.mem_map.mp hmem
    exact hle hit hhit
  obtain ⟨current, hadd, hcontains⟩ := foldlM_add?_of_le hkeys hopen
  refine ⟨current, by rw [searchSegment, readColumns_singleton hcolumn, ok_bind, hhits, ok_bind, hadd],
    fun key => ?_⟩
  rw [hcontains, hcurrent, KeyBits.contains_empty, List.mem_map]
  constructor
  · rintro (⟨h0, hit, hhit, hkey⟩ | hfalse)
    · exact ⟨h0, hits, hhits, hit, hhit, hkey⟩
    · exact absurd hfalse Bool.false_ne_true
  · rintro ⟨h0, others, hothers, hit, hhit, hkey⟩
    obtain rfl : others = hits := Except.ok.inj (hothers.symm.trans hhits)
    exact .inl ⟨h0, hit, hhit, hkey⟩

theorem searchSegment_of_not_answers (h : ¬ s.Answers query field) (hopen : k.isOpen = true) :
    ∃ failure, searchSegment s query field k = .error failure := by
  rw [searchSegment]
  rcases hcolumn : s.joinKeys field with failure | column
  · exact ⟨failure, by rw [readColumns_cons, hcolumn]; rfl⟩
  rw [readColumns_singleton hcolumn, ok_bind]
  rcases hhits : s.search query true with failure | hits
  · exact ⟨failure, rfl⟩
  rw [ok_bind]
  refine foldlM_add?_of_lt ?_ hopen
  by_contra hall
  refine h ⟨⟨column, hcolumn⟩, hits, hhits, fun hit hhit => ?_⟩
  refine Nat.not_lt.mp fun hlt => hall ⟨_, List.mem_map.mpr ⟨hit, hhit, rfl⟩, hlt⟩

end KeysSoFar

/-! ### The collector that remembers nothing -/

section JoinKeys

variable (query : Query) (field : String)

omit [PatternEngines] in
theorem modest_joinKeys : (joinKeys field).Modest fun _ => [field] where
  asks _ _ := Process.endsOnly_pure fun _ => List.Subset.refl _
  keeps _ _ _ := Process.endsOnly_ofExcept (meets_iff.mpr
    ⟨fun _ _ => List.Subset.refl _, fun _ _ => trivial⟩)
  collects := by
    intro bound other l _ hcolumns hit
    simp only [joinKeys, Bound.key, hcolumns field (List.mem_singleton_self _)]
  ends _ _ := rfl
  unscored _ _ _ _ _ := rfl

theorem readSegment_joinKeys (k : KeysSoFar) (placed : Placed) :
    (joinKeys field).readSegment query k placed =
      (.ofExcept (KeysSoFar.searchSegment placed.segment query field k.openSegment) >>= fun k =>
        pure (k.closeSegment k.current)) := by
  rw [Collector.readSegment, KeysSoFar.searchSegment]
  simp only [List.foldlM_map, Process.ofExcept_bind, ← Process.foldlM_ofExcept, bind_assoc]
  rfl

theorem gathersKeys_joinKeys (catalog : Catalog) :
    (joinKeys field).GathersKeys catalog query field fun _ => True where
  start := rfl
  finish _ := rfl
  merge _ _ := rfl
  segment placed _ k s _ := by
    rw [readSegment_joinKeys]
    by_cases h : placed.segment.Answers query field
    · obtain ⟨current, hok, hkeys⟩ := KeysSoFar.searchSegment_of_answers h (k := k.openSegment) rfl rfl
      rw [hok, Process.ofExcept_ok_bind]
      refine Process.ensures_pure ⟨h, fun key => ?_⟩
      rw [KeysSoFar.closeSegment, KeyBits.contains_union, Bool.or_eq_true, hkeys]
      rfl
    · obtain ⟨failure, herr⟩ := KeysSoFar.searchSegment_of_not_answers h (k := k.openSegment) rfl
      rw [herr, Process.ofExcept_error_bind]
      exact h

end JoinKeys

/-! ### The collector that remembers -/

/-- The keys that are remembered for a query and a field are the answers of the segments. -/
def SegmentKeys.Sound (catalog : Catalog) (query : Query) (field : String) (m : SegmentKeys) : Prop :=
  SegmentMap.Sound catalog (fun s _ keys => s.Answers query field ∧
    ∀ key : Nat, keys.contains key = true ↔ s.HasKey query field key) m

theorem SegmentKeys.sound_empty {catalog : Catalog} {query : Query} {field : String} :
    SegmentKeys.Sound catalog query field {} := SegmentMap.sound_empty

section Remembered

variable (live : Liveness) (query : Query) (field : String) (memory : KeyMemory)

omit [PatternEngines] in
theorem modest_remembered : (rememberedJoinKeys live field memory).Modest fun _ => [field] where
  asks placed l := by
    have hlook : (Process.update fun m : KeyMemory => m.look live placed.segment).EndsOnly
        (fun _ => True) fun _ => True := Process.endsOnly_true _
    refine hlook.bind fun found _ => ?_
    cases found with
    | some keys => exact Process.endsOnly_pure nofun
    | none => exact Process.endsOnly_pure fun _ => List.Subset.refl _
  keeps _ _ _ := Process.endsOnly_ofExcept (meets_iff.mpr
    ⟨fun _ _ => List.Subset.refl _, fun _ _ => trivial⟩)
  collects := by
    intro bound other l _ hcolumns hit
    simp only [rememberedJoinKeys, Bound.key, hcolumns field (List.mem_singleton_self _)]
  ends := by
    intro bound other l hplaced _
    simp only [rememberedJoinKeys, hplaced]
  unscored _ _ _ _ _ := rfl

/-- A segment with remembered keys is skipped. Any other segment is searched, and then its keys are
remembered. -/
theorem readSegment_remembered (k : KeysSoFar) (placed : Placed) :
    (rememberedJoinKeys live field memory).readSegment query k placed =
      (Process.update fun m => m.look live placed.segment) >>= fun found => found.elim
        (.ofExcept (KeysSoFar.searchSegment placed.segment query field k.openSegment) >>= fun k =>
          (Process.update fun m => m.keep live placed.segment k.current) >>= fun kept =>
            pure (k.closeSegment kept))
        fun keys => pure (k.addSegment keys) := by
  rw [Collector.readSegment, rememberedJoinKeys]
  simp only [bind_assoc]
  refine congrArg _ (funext fun found => ?_)
  cases found with
  | some keys => rfl
  | none =>
    simp only [KeysSoFar.searchSegment, Process.ofExcept_bind, ← Process.foldlM_ofExcept,
      List.foldlM_map, pure_bind, bind_assoc, Option.elim_none]
    rfl

/-- **What is remembered does not show.** -/
theorem gathersKeys_remembered (catalog : Catalog) :
    (rememberedJoinKeys live field memory).GathersKeys catalog query field
      fun m => m.keys.Sound catalog query field where
  start := rfl
  finish _ := rfl
  merge _ _ := rfl
  segment placed hlists k m hm := by
    rw [readSegment_remembered]
    have hlook : (Process.update fun m => KeyMemory.look m live placed.segment).Ensures
        (.keeping fun m => m.keys.Sound catalog query field)
        (fun found _ => ∀ keys, found = some keys → placed.segment.Answers query field ∧
          ∀ key : Nat, keys.contains key = true ↔ placed.segment.HasKey query field key)
        (fun _ => ¬ placed.segment.Answers query field) m := by
      refine Process.ensures_update fun t hmt => ?_
      rw [KeyMemory.look]
      rcases hget : t.keys.get? live placed.segment.identity () with _ | keys
      · exact ⟨fun ht => ht, nofun⟩
      · exact ⟨fun ht => ht, fun _ heq => Option.some.inj heq ▸ SegmentMap.Sound.get? (hmt hm) hlists hget⟩
    refine hlook.bind fun found t hmt hfound => ?_
    cases found with
    | some keys =>
      obtain ⟨hanswers, hkeys⟩ := hfound keys rfl
      refine Process.ensures_pure ⟨hanswers, fun key => ?_⟩
      rw [KeysSoFar.addSegment, KeyBits.contains_union, Bool.or_eq_true, hkeys]
    | none =>
      by_cases h : placed.segment.Answers query field
      · obtain ⟨current, hok, hkeys⟩ := KeysSoFar.searchSegment_of_answers h (k := k.openSegment) rfl rfl
        rw [Option.elim_none, hok, Process.ofExcept_ok_bind]
        refine Process.Ensures.bind (?_ : Process.Ensures _ (fun kept _ => ∀ key : Nat,
          kept.contains key = true ↔ placed.segment.HasKey query field key) _ _ _)
            fun kept u _ hkept => Process.ensures_pure ⟨h, fun key => ?_⟩
        · refine Process.ensures_update fun u hu => ?_
          obtain ⟨⟨-, hkept⟩, hsound⟩ :=
            SegmentMap.Sound.insertIfAbsent (hu (hmt hm)) live hlists ⟨h, hkeys⟩
          exact ⟨fun _ => hsound, hkept⟩
        · rw [KeysSoFar.closeSegment, KeyBits.contains_union, Bool.or_eq_true, hkept]
          rfl
      · obtain ⟨failure, herr⟩ := KeysSoFar.searchSegment_of_not_answers h (k := k.openSegment) rfl
        rw [Option.elim_none, herr, Process.ofExcept_error_bind]
        exact h

end Remembered

end FederatedSearch
