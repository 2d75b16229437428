import FederatedSearch.Search.Run
import Mathlib.Algebra.Ring.Nat
import Mathlib.Data.List.Sort

/-!
# Groups cover the segments

Spreading segments over groups changes their order and nothing else: the groups together have every
segment, each once. Whatever a search computes from its matches regardless of their order therefore
does not depend on the number of groups.

Within a group the segments are in the order in which they are in the snapshot. They need not be next to
each other there.

The groups are balanced as far as that can be had without a look ahead. An item goes to a group with the
least load, so right after that the group is above any other one by no more than the item. Groups that
stay empty and are dropped count here, too.

## Main definitions

* `Level` — the loads of groups are at most one item apart
* `Balanced` — what spreading items over groups comes to

## Main results

* `flatten_partition_perm` — the groups have all positions, each once
* `pairwise_of_mem_partition`, `length_partition_le` — in ascending order, in so many groups at most
* `Level.balance`, `Level.foldl_balance` — one item, and all of them
* `balanced_partition` — the groups are balanced
* `flatten_groupsOf_perm`, `sublist_of_mem_groupsOf` — the same of the segments of a snapshot
-/

namespace FederatedSearch

/-! ### One item more -/

theorem leastLoad_mem {groups : List Group} (h : groups ≠ []) :
    ∃ g ∈ groups, g.load = leastLoad groups := by
  have hloads : groups.map (·.load) ≠ [] := by simpa using h
  obtain ⟨load, hload⟩ := Option.isSome_iff_exists.mp (List.isSome_min?_of_ne_nil hloads)
  obtain ⟨g, hmem, rfl⟩ := List.mem_map.mp (List.min?_mem hload)
  exact ⟨g, hmem, by simp [leastLoad, hload]⟩

@[simp] theorem length_addToGroup (load item size : Nat) (groups : List Group) :
    (addToGroup load item size groups).length = groups.length := by
  induction groups with
  | nil => rfl
  | cons g groups ih =>
    rw [addToGroup]
    split <;> simp [ih]

/-- The item goes to one group, if there is one with the load. -/
theorem members_addToGroup_perm {load item size : Nat} {groups : List Group}
    (h : ∃ g ∈ groups, g.load = load) :
    ((addToGroup load item size groups).flatMap (·.members)).Perm
      (groups.flatMap (·.members) ++ [item]) := by
  induction groups with
  | nil => simp at h
  | cons g groups ih =>
    rw [addToGroup]
    split
    · simp only [List.flatMap_cons, List.append_assoc]
      exact List.Perm.append_left _ List.perm_append_comm
    · rename_i hload
      obtain ⟨other, hmem, hother⟩ := h
      have hrest : ∃ g ∈ groups, g.load = load := by
        rcases List.mem_cons.mp hmem with rfl | hmem
        · exact absurd hother hload
        · exact ⟨other, hmem, hother⟩
      rw [List.flatMap_cons, List.flatMap_cons, List.append_assoc]
      exact (ih hrest).append_left _

theorem members_balance_perm {groups : List Group} (h : groups ≠ []) (item size : Nat) :
    ((balance groups item size).flatMap (·.members)).Perm (groups.flatMap (·.members) ++ [item]) :=
  members_addToGroup_perm (leastLoad_mem h)

theorem balance_ne_nil {groups : List Group} (h : groups ≠ []) (item size : Nat) :
    balance groups item size ≠ [] := by
  have hlength : (balance groups item size).length ≠ 0 := by
    simpa [balance] using h
  simpa using hlength

/-! ### All items -/

theorem members_foldl_balance_perm (items : List (Nat × Nat)) {groups : List Group}
    (h : groups ≠ []) :
    ((items.foldl (fun groups e => balance groups e.2 e.1) groups).flatMap (·.members)).Perm
      (groups.flatMap (·.members) ++ items.map (·.2)) := by
  induction items generalizing groups with
  | nil => simp
  | cons e items ih =>
    rw [List.foldl_cons, List.map_cons]
    refine (ih (balance_ne_nil h _ _)).trans ?_
    refine ((members_balance_perm h _ _).append_right _).trans ?_
    rw [List.append_assoc, List.singleton_append]

theorem flatten_filter_not_isEmpty {α : Type} (groups : List (List α)) :
    (groups.filter (!·.isEmpty)).flatten = groups.flatten := by
  induction groups with
  | nil => rfl
  | cons g groups ih => cases g <;> simp [ih]

/-- **The groups cover all positions**, each once. -/
theorem flatten_partition_perm (sizes : List Nat) (maxGroups : Nat) :
    (partition sizes maxGroups).flatten.Perm (List.range sizes.length) := by
  have hne : List.replicate (max maxGroups 1) ({} : Group) ≠ [] := by
    intro h
    have hlength := congrArg List.length h
    rw [List.length_replicate, List.length_nil] at hlength
    omega
  have hitems : sizes.zipIdx.map (·.2) = List.range sizes.length := by
    rw [List.zipIdx_map_snd, List.range_eq_range']
  have hall := members_foldl_balance_perm sizes.zipIdx hne
  rw [hitems, List.flatMap_replicate] at hall
  rw [partition, flatten_filter_not_isEmpty, ← List.flatMap_def]
  simpa using hall

/-! ### The order within a group -/

/-- The members of each group ascend and are all below a position. -/
def AscendBelow (bound : Nat) (groups : List Group) : Prop :=
  ∀ g ∈ groups, g.members.Pairwise (· < ·) ∧ ∀ member ∈ g.members, member < bound

theorem AscendBelow.addToGroup {item : Nat} {groups : List Group} (h : AscendBelow item groups)
    (load size : Nat) : AscendBelow (item + 1) (addToGroup load item size groups) := by
  induction groups with
  | nil => exact nofun
  | cons g groups ih =>
    obtain ⟨⟨hascend, hbelow⟩, hrest⟩ := List.forall_mem_cons.mp h
    have hstep : ∀ {members : List Nat}, (∀ member ∈ members, member < item) →
        ∀ member ∈ members, member < item + 1 :=
      fun hlt member hmem => Nat.lt_succ_of_lt (hlt member hmem)
    rw [FederatedSearch.addToGroup]
    split
    · refine List.forall_mem_cons.mpr ⟨⟨?_, ?_⟩, fun other hmem => ?_⟩
      · refine List.pairwise_append.mpr ⟨hascend, List.pairwise_singleton _ _, fun member hmem => ?_⟩
        exact List.forall_mem_singleton.mpr (hbelow member hmem)
      · exact List.forall_mem_append.mpr
          ⟨hstep hbelow, List.forall_mem_singleton.mpr (Nat.lt_succ_self item)⟩
      · exact ⟨(hrest other hmem).1, hstep (hrest other hmem).2⟩
    · exact List.forall_mem_cons.mpr ⟨⟨hascend, hstep hbelow⟩, ih hrest⟩

/-- Items are handed out in ascending order. -/
theorem AscendBelow.foldl_balance (sizes : List Nat) {next : Nat} {groups : List Group}
    (h : AscendBelow next groups) : AscendBelow (next + sizes.length)
      ((sizes.zipIdx next).foldl (fun groups e => balance groups e.2 e.1) groups) := by
  induction sizes generalizing next groups with
  | nil => exact h
  | cons size sizes ih =>
    rw [List.zipIdx_cons, List.foldl_cons, List.length_cons, Nat.add_comm sizes.length, ← Nat.add_assoc]
    exact ih (h.addToGroup _ size)

/-- **The positions ascend** within each group. -/
theorem pairwise_of_mem_partition {sizes : List Nat} {maxGroups : Nat} {members : List Nat}
    (h : members ∈ partition sizes maxGroups) :
    members.Pairwise (· < ·) ∧ ∀ member ∈ members, member < sizes.length := by
  obtain ⟨g, hg, rfl⟩ := List.mem_map.mp (List.mem_filter.mp h).1
  have hstart : AscendBelow 0 (List.replicate (max maxGroups 1) {}) := by
    intro g hmem
    rw [(List.mem_replicate.mp hmem).2]
    exact ⟨.nil, nofun⟩
  have hall := hstart.foldl_balance sizes g hg
  rwa [Nat.zero_add] at hall

theorem length_foldl_balance (items : List (Nat × Nat)) (groups : List Group) :
    (items.foldl (fun groups e => balance groups e.2 e.1) groups).length = groups.length := by
  induction items generalizing groups with
  | nil => rfl
  | cons e items ih => rw [List.foldl_cons, ih, balance, length_addToGroup]

theorem length_partition_le (sizes : List Nat) (maxGroups : Nat) :
    (partition sizes maxGroups).length ≤ max maxGroups 1 := by
  refine (List.length_filter_le _ _).trans (Nat.le_of_eq ?_)
  rw [List.length_map]
  exact (length_foldl_balance _ _).trans List.length_replicate

/-! ### Balance -/

/-- The largest size. -/
def largest (sizes : List Nat) : Nat := sizes.max?.getD 0

theorem le_largest {sizes : List Nat} {size : Nat} (h : size ∈ sizes) : size ≤ largest sizes := by
  obtain ⟨greatest, hgreatest⟩ :=
    Option.isSome_iff_exists.mp (List.isSome_max?_of_mem h)
  rw [largest, hgreatest]
  exact (List.max?_eq_some_iff.mp hgreatest).2 size h

/-- The sizes of the items at some positions, added up. -/
def loadOf (sizes members : List Nat) : Nat := (members.map (sizes.getD · 0)).sum

theorem loadOf_append (sizes members others : List Nat) :
    loadOf sizes (members ++ others) = loadOf sizes members + loadOf sizes others := by
  rw [loadOf, List.map_append, List.sum_append]
  rfl

theorem loadOf_range (sizes : List Nat) : loadOf sizes (List.range sizes.length) = sizes.sum := by
  have hmap : (List.range sizes.length).map (sizes.getD · 0) = sizes :=
    List.ext_getElem (by simp) fun i h h' => by simp [List.getD, List.getElem?_eq_getElem h']
  rw [loadOf, hmap]

theorem leastLoad_le {groups : List Group} {g : Group} (h : g ∈ groups) :
    leastLoad groups ≤ g.load := by
  obtain ⟨load, hload⟩ := Option.isSome_iff_exists.mp
    (List.isSome_min?_of_mem (List.mem_map_of_mem h : g.load ∈ groups.map (·.load)))
  rw [leastLoad, hload]
  exact (List.min?_eq_some_iff.mp hload).2 _ (List.mem_map_of_mem h)

theorem mem_addToGroup {load item size : Nat} {groups : List Group} {g : Group}
    (h : g ∈ addToGroup load item size groups) :
    g ∈ groups ∨
      ∃ old ∈ groups, old.load = load ∧ g = ⟨old.members ++ [item], old.load + size⟩ := by
  induction groups with
  | nil => exact .inl h
  | cons first groups ih =>
    rw [addToGroup] at h
    split at h
    · rename_i hload
      rcases List.mem_cons.mp h with rfl | h
      · exact .inr ⟨first, List.mem_cons_self, hload, rfl⟩
      · exact .inl (List.mem_cons_of_mem _ h)
    · rcases List.mem_cons.mp h with rfl | h
      · exact .inl List.mem_cons_self
      · rcases ih h with h | ⟨old, hold, heq⟩
        · exact .inl (List.mem_cons_of_mem _ h)
        · exact .inr ⟨old, List.mem_cons_of_mem _ hold, heq⟩

/-- Each group has the load of its members, and no load is above another one by more than the largest
item. -/
structure Level (sizes : List Nat) (groups : List Group) : Prop where
  load_eq : ∀ g ∈ groups, g.load = loadOf sizes g.members
  load_le : ∀ g ∈ groups, ∀ other ∈ groups, g.load ≤ other.load + largest sizes

theorem level_replicate (sizes : List Nat) (count : Nat) : Level sizes (List.replicate count {}) := by
  refine ⟨fun g hg => ?_, fun g hg other _ => ?_⟩
  · rw [(List.mem_replicate.mp hg).2]
    rfl
  · rw [(List.mem_replicate.mp hg).2]
    exact Nat.zero_le _

/-- **One item more.** The group that gets it had the least load before. -/
theorem Level.balance {sizes : List Nat} {groups : List Group} (h : Level sizes groups) {item size : Nat}
    (hitem : sizes[item]? = some size) : Level sizes (balance groups item size) := by
  have hsize : size ≤ largest sizes := le_largest (List.mem_of_getElem? hitem)
  refine ⟨fun g hg => ?_, fun g hg other hother => ?_⟩
  · rcases mem_addToGroup hg with hg | ⟨old, hold, -, rfl⟩
    · exact h.load_eq g hg
    · have hlast : loadOf sizes [item] = size := by
        simp [loadOf, List.getD, hitem]
      rw [loadOf_append, hlast, ← h.load_eq old hold]
  · rcases mem_addToGroup hg with hg | ⟨old, hold, hleast, rfl⟩ <;>
      rcases mem_addToGroup hother with hother | ⟨old', hold', hleast', rfl⟩
    · exact h.load_le g hg other hother
    · have hle := h.load_le g hg old' hold'
      exact hle.trans (Nat.add_le_add_right (Nat.le_add_right _ _) _)
    · have hle : old.load ≤ other.load := hleast ▸ leastLoad_le hother
      exact Nat.add_le_add hle hsize
    · exact Nat.add_le_add (hleast.trans hleast'.symm).le hsize |>.trans
        (Nat.add_le_add_right (Nat.le_add_right _ _) _)

/-- **All items.** -/
theorem Level.foldl_balance {sizes : List Nat} {items : List (Nat × Nat)}
    (hitems : ∀ e ∈ items, sizes[e.2]? = some e.1) {groups : List Group} (h : Level sizes groups) :
    Level sizes (items.foldl (fun groups e => FederatedSearch.balance groups e.2 e.1) groups) := by
  induction items generalizing groups with
  | nil => exact h
  | cons e items ih =>
    obtain ⟨he, hrest⟩ := List.forall_mem_cons.mp hitems
    exact ih hrest (h.balance he)

/-- The items of given sizes are spread over so many groups at most. -/
structure Balanced (sizes : List Nat) (count : Nat) (groups : List (List Nat)) : Prop where
  length_le : groups.length ≤ count
  ne_nil : ∀ members ∈ groups, members ≠ []
  covers : groups.flatten.Perm (List.range sizes.length)
  ascending : ∀ members ∈ groups, members.Pairwise (· < ·)
  /-- If all sizes together fit into a word then so does every load. -/
  load_le_sum : ∀ members ∈ groups, loadOf sizes members ≤ sizes.sum
  /-- Groups that were dropped count as groups without a member. -/
  level : ∀ members ∈ groups, ∀ other ∈ groups ++ List.replicate (count - groups.length) [],
    loadOf sizes members ≤ loadOf sizes other + largest sizes

theorem mem_partition {sizes members : List Nat} {maxGroups : Nat} :
    members ∈ partition sizes maxGroups ↔ members ≠ [] ∧
      ∃ g ∈ sizes.zipIdx.foldl (fun groups e => balance groups e.2 e.1)
        (List.replicate (max maxGroups 1) {}), g.members = members := by
  rw [partition, List.mem_filter, List.mem_map, and_comm, Bool.not_eq_true',
    List.isEmpty_eq_false_iff]

/-- If fewer groups are given back than there were, then one of these got nothing. -/
theorem exists_dropped {sizes : List Nat} {maxGroups : Nat}
    (h : (partition sizes maxGroups).length < max maxGroups 1) :
    ∃ g ∈ sizes.zipIdx.foldl (fun groups e => balance groups e.2 e.1)
      (List.replicate (max maxGroups 1) {}), g.members = [] := by
  by_contra hnone
  have hall : partition sizes maxGroups = (sizes.zipIdx.foldl
      (fun groups e => balance groups e.2 e.1) (List.replicate (max maxGroups 1) {})).map
        (·.members) := by
    refine List.filter_eq_self.mpr fun members hmem => ?_
    obtain ⟨g, hg, rfl⟩ := List.mem_map.mp hmem
    rw [Bool.not_eq_true', List.isEmpty_eq_false_iff]
    exact fun hnil => hnone ⟨g, hg, hnil⟩
  rw [hall, List.length_map, length_foldl_balance, List.length_replicate] at h
  exact Nat.lt_irrefl _ h

theorem loadOf_le_sum {sizes members : List Nat} {maxGroups : Nat}
    (h : members ∈ partition sizes maxGroups) : loadOf sizes members ≤ sizes.sum := by
  have hall : loadOf sizes (partition sizes maxGroups).flatten = sizes.sum :=
    ((flatten_partition_perm sizes maxGroups).map _).sum_nat.trans (loadOf_range sizes)
  obtain ⟨before, after, hgroups⟩ := List.append_of_mem h
  rw [hgroups, List.flatten_append, List.flatten_cons, loadOf_append, loadOf_append] at hall
  omega

/-- **The groups are balanced.** They have all positions, each once and in ascending order, and the load
of a group is above that of any other one by no more than the largest item, also if the other one got
nothing and was dropped. -/
theorem balanced_partition (sizes : List Nat) (maxGroups : Nat) :
    Balanced sizes (max maxGroups 1) (partition sizes maxGroups) := by
  have hlevel : Level sizes (sizes.zipIdx.foldl (fun groups e => balance groups e.2 e.1)
      (List.replicate (max maxGroups 1) {})) :=
    (level_replicate sizes _).foldl_balance fun e he => List.mem_zipIdx_iff_getElem?.mp he
  refine ⟨length_partition_le sizes maxGroups, fun members hmem => (mem_partition.mp hmem).1,
    flatten_partition_perm sizes maxGroups, fun members hmem => (pairwise_of_mem_partition hmem).1,
    fun members hmem => loadOf_le_sum hmem, fun members hmem other hother => ?_⟩
  obtain ⟨-, g, hg, rfl⟩ := mem_partition.mp hmem
  obtain ⟨g', hg', rfl⟩ : ∃ g' ∈ sizes.zipIdx.foldl (fun groups e => balance groups e.2 e.1)
      (List.replicate (max maxGroups 1) {}), g'.members = other := by
    rcases List.mem_append.mp hother with hother | hother
    · exact (mem_partition.mp hother).2
    · obtain ⟨hpos, rfl⟩ := List.mem_replicate.mp hother
      exact exists_dropped (Nat.lt_of_sub_ne_zero hpos)
  rw [← hlevel.load_eq g hg, ← hlevel.load_eq g' hg']
  exact hlevel.load_le g hg g' hg'

/-- Items of size 0 go to the first group as long as that has no load; after that they join others. -/
example : partition [0, 5, 0, 1, 1, 1] 3 = [[0, 1], [2, 3, 5], [4]] := by decide

/-! ### Segments -/

theorem filterMap_range_getElem? {α : Type} (l : List α) :
    (List.range l.length).filterMap (l[·]?) = l := by
  have hmap : (List.range l.length).map (l[·]?) = l.map some :=
    List.ext_getElem (by simp) (by simp)
  calc (List.range l.length).filterMap (l[·]?)
      = ((List.range l.length).map (l[·]?)).filterMap id := by rw [List.filterMap_map]; rfl
    _ = (l.map some).filterMap id := by rw [hmap]
    _ = l := by simp [List.filterMap_map]

/-- **The groups cover all segments**, each once. -/
theorem Collector.flatten_groupsOf_perm (w : Workshop) (snapshot : Snapshot) :
    (groupsOf w snapshot).flatten.Perm snapshot.segments := by
  have hpositions := flatten_partition_perm (snapshot.segments.map (·.segment.liveCount)) w.concurrency
  rw [List.length_map] at hpositions
  have hsegments := hpositions.filterMap (snapshot.segments[·]?)
  rw [filterMap_range_getElem?, List.filterMap_flatten] at hsegments
  exact hsegments

/-- **The segments of a group** are in the order of the snapshot. -/
theorem Collector.sublist_of_mem_groupsOf {w : Workshop} {snapshot : Snapshot} {group : List Placed}
    (h : group ∈ groupsOf w snapshot) : group.Sublist snapshot.segments := by
  obtain ⟨members, hmembers, rfl⟩ := List.mem_map.mp h
  obtain ⟨hascend, hbelow⟩ := pairwise_of_mem_partition hmembers
  rw [List.length_map] at hbelow
  have hsubset : members ⊆ List.range snapshot.segments.length := fun member hmem =>
    List.mem_range.mpr (hbelow member hmem)
  have hrange : members.Sublist (List.range snapshot.segments.length) :=
    List.sublist_of_subperm_of_pairwise
      (List.subperm_of_subset (hascend.imp Nat.ne_of_lt) hsubset) hascend List.pairwise_lt_range
  have hsegments := hrange.filterMap (snapshot.segments[·]?)
  rwa [filterMap_range_getElem?] at hsegments

theorem Collector.length_groupsOf_le (w : Workshop) (snapshot : Snapshot) :
    (groupsOf w snapshot).length ≤ max w.concurrency 1 := by
  rw [groupsOf, List.length_map]
  exact length_partition_le _ _

end FederatedSearch
