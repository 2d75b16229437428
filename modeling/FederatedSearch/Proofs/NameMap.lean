import FederatedSearch.NameMap
import Mathlib.Data.List.Nodup
import Mathlib.Data.List.Perm.Basic

/-!
# Reading name maps

A name map is known by what is found in it. This module says what the operations do to that.

## Main results

* `NameMap.find?_update`
* `NameMap.find?_ofList` — the last entry of a name counts
* `NameMap.ext_find?` — maps in which the same is found are equal
* `NameMap.ofList_entries` — a map is the map of its entries
* `NameMap.forall₂_entries` — maps in which related values are found
-/

namespace FederatedSearch

namespace NameMap

variable {α : Type}

@[simp] theorem find?_empty (name : String) : (empty : NameMap α).find? name = none := rfl

theorem find?_update (m : NameMap α) (name other : String) (f : Option α → α) :
    (m.update name f).find? other =
      if name = other then some (f (m.find? name)) else m.find? other := by
  rw [update, find?_insert]

theorem find?_foldl_insert (entries : List (String × α)) (m : NameMap α) (name : String) :
    (entries.foldl (fun m e => m.insert e.1 e.2) m).find? name =
      ((entries.reverse.find? (·.1 = name)).map (·.2)).or (m.find? name) := by
  induction entries generalizing m with
  | nil => simp
  | cons e entries ih =>
    rw [List.foldl_cons, ih, find?_insert, List.reverse_cons, List.find?_append]
    cases entries.reverse.find? (·.1 = name) with
    | some _ => rfl
    | none => by_cases h : e.1 = name <;> simp [h]

/-- **A map of a list** has the last entry of each name. -/
theorem find?_ofList (entries : List (String × α)) (name : String) :
    (ofList entries).find? name = (entries.reverse.find? (·.1 = name)).map (·.2) := by
  rw [ofList, find?_foldl_insert, find?_empty, Option.or_none]

theorem mem_of_find?_ofList {entries : List (String × α)} {name : String} {value : α}
    (h : (ofList entries).find? name = some value) : (name, value) ∈ entries := by
  rw [find?_ofList] at h
  obtain ⟨e, hfind, rfl⟩ := Option.map_eq_some_iff.mp h
  have hname : e.1 = name := by simpa using List.find?_some hfind
  have hmem : e ∈ entries := List.mem_reverse.mp (List.mem_of_find?_eq_some hfind)
  rwa [← hname]

theorem mem_keys_iff {m : NameMap α} {name : String} :
    name ∈ m.keys ↔ (m.find? name).isSome = true := by
  rw [keys, find?, Option.isSome_map, List.find?_isSome]
  simp

theorem mem_keys_ofList {entries : List (String × α)} {name : String} :
    name ∈ (ofList entries).keys ↔ name ∈ entries.map (·.1) := by
  rw [mem_keys_iff, find?_ofList, Option.isSome_map, List.find?_isSome]
  simp

/-- With different names, the order of a list does not matter. -/
theorem find?_ofList_of_mem {entries : List (String × α)} (hnodup : (entries.map (·.1)).Nodup)
    {name : String} {value : α} (h : (name, value) ∈ entries) :
    (ofList entries).find? name = some value := by
  have hkey : name ∈ (ofList entries).keys := mem_keys_ofList.mpr (List.mem_map_of_mem h)
  obtain ⟨other, hother⟩ := Option.isSome_iff_exists.mp (mem_keys_iff.mp hkey)
  have hsame : (name, other) = (name, value) :=
    List.inj_on_of_nodup_map hnodup (mem_of_find?_ofList hother) h rfl
  rw [hother, (Prod.mk.inj hsame).2]

/-- There is at most one entry of a name. -/
theorem mem_entries_iff {m : NameMap α} {name : String} {value : α} :
    (name, value) ∈ m.entries ↔ m.find? name = some value := by
  have hunique : ∀ {entries : List (String × α)}, Ascending entries →
      ((name, value) ∈ entries ↔ (entries.find? (·.1 = name)).map (·.2) = some value) := by
    intro entries h
    induction entries with
    | nil => simp
    | cons e rest ih =>
      obtain ⟨hfirst, hrest⟩ := List.pairwise_cons.mp h
      rw [List.mem_cons, List.find?_cons]
      by_cases heq : e.1 = name
      · have hnot : (name, value) ∉ rest := by
          intro hmem
          have hlt : e.1 < name := hfirst _ hmem
          rw [heq] at hlt
          exact String.lt_irrefl name hlt
        simp [heq, hnot, Prod.ext_iff, eq_comm]
      · have hne : (name, value) ≠ e := fun h => heq (congrArg Prod.fst h).symm
        simp [heq, hne, ih hrest]
  exact hunique m.ascending

theorem keys_nodup (m : NameMap α) : m.keys.Nodup := by
  refine m.keys_sorted.imp fun {name other} hlt heq => ?_
  rw [heq] at hlt
  exact String.lt_irrefl other hlt

/-- **Maps in which the same is found** are equal. -/
theorem ext_find? {a b : NameMap α} (h : ∀ name, a.find? name = b.find? name) : a = b := by
  have hnodup : ∀ {m : NameMap α}, m.entries.Nodup := fun {m} => m.keys_nodup.of_map
  have hperm : a.entries.Perm b.entries := by
    refine (List.perm_ext_iff_of_nodup hnodup hnodup).mpr fun ⟨name, value⟩ => ?_
    rw [mem_entries_iff, mem_entries_iff, h]
  refine ext (hperm.eq_of_pairwise (fun e e' _ _ hlt hgt => ?_) a.ascending b.ascending)
  exact absurd (String.lt_trans hlt hgt) (String.lt_irrefl _)

/-- A map is the map of its entries. -/
theorem ofList_entries (m : NameMap α) : ofList m.entries = m := by
  refine ext_find? fun name => ?_
  cases hfound : m.find? name with
  | some value => exact find?_ofList_of_mem m.keys_nodup (mem_entries_iff.mpr hfound)
  | none =>
    cases hlisted : (ofList m.entries).find? name with
    | none => rfl
    | some value =>
      have hmem := mem_entries_iff.mp (mem_of_find?_ofList hlisted)
      rw [hfound] at hmem
      cases hmem

/-- **Maps in which related values are found** list related values under the same names. -/
theorem forall₂_entries {β : Type} {rel : α → β → Prop} {a : NameMap α} {b : NameMap β}
    (h : ∀ name, Option.Rel rel (a.find? name) (b.find? name)) :
    List.Forall₂ (fun e e' => e.1 = e'.1 ∧ rel e.2 e'.2) a.entries b.entries := by
  have hkeys : a.keys = b.keys := by
    have hmem : ∀ name, name ∈ a.keys ↔ name ∈ b.keys := by
      intro name
      have hfound := h name
      rw [mem_keys_iff, mem_keys_iff]
      generalize a.find? name = x, b.find? name = y at hfound
      cases hfound <;> rfl
    have hperm := (List.perm_ext_iff_of_nodup a.keys_nodup b.keys_nodup).mpr hmem
    exact hperm.eq_of_pairwise (fun x y _ _ hlt hgt => absurd (String.lt_trans hlt hgt)
      (String.lt_irrefl _)) a.keys_sorted b.keys_sorted
  have hlength : a.entries.length = b.entries.length := by
    simpa [keys] using congrArg List.length hkeys
  refine List.forall₂_iff_get.mpr ⟨hlength, fun i hi hi' => ?_⟩
  have hname : (a.entries.get ⟨i, hi⟩).1 = (b.entries.get ⟨i, hi'⟩).1 := by
    have hget := List.getElem_of_eq hkeys (i := i) (by simpa [keys] using hi)
    simpa [keys] using hget
  have ha := mem_entries_iff.mp (List.get_mem a.entries ⟨i, hi⟩)
  have hb := mem_entries_iff.mp (List.get_mem b.entries ⟨i, hi'⟩)
  have hrel := h (a.entries.get ⟨i, hi⟩).1
  rw [ha, hname, hb] at hrel
  obtain ⟨hrel⟩ := hrel
  exact ⟨hname, hrel⟩

end NameMap

end FederatedSearch
