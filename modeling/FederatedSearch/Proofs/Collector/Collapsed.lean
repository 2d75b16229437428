import FederatedSearch.Proofs.Collector.Modest
import FederatedSearch.Proofs.Collector.Scheduled
import FederatedSearch.Proofs.Hit.Shared

/-!
# Collapsing keeps the most relevant match of each key

A group keeps the best of its matches without a key for itself, and offers all others for the records, for
which all groups contend. When every group has taken in its matches, each record is the best of the matches
with its key, whatever the others did in between.

The hits that are left after collapsing are the hits without a key and the records of the keys. In
terms of the matches, these are the ones that have no key or that no match with the same key comes
before in relevance order. There is just one such match for each key, since different matches have
different numbers.

## Main definitions

* `Collector.keyed`, `Collector.unkeyed` — the matches with and without a key
* `Collector.kept` — the matches that are left

## Main results

* `Collector.takes_collapsing`, `Collector.merge_takes_collapsing` — what groups take in, and the merge
* `Collector.collapsed_perm` — collapsing leaves the hits of these matches
-/

namespace FederatedSearch

namespace Collector

open Process

section Keyed

variable (field : String)

/-- The matches with a key, as offers for the records. -/
def keyed (items : List Offer) : List (JoinKey × Hit) :=
  (items.filter (·.key field ≠ noKey)).map fun e => (e.key field, e.hit)

/-- The matches without a key. -/
def unkeyed (items : List Offer) : List Hit := (items.filter (·.key field = noKey)).map Offer.hit

variable {field}

theorem keyed_append (items more : List Offer) :
    keyed field (items ++ more) = keyed field items ++ keyed field more := by
  rw [keyed, List.filter_append, List.map_append, keyed, keyed]

theorem keyed_flatten (groups : List (List Offer)) :
    keyed field groups.flatten = (groups.map (keyed field)).flatten := by
  rw [keyed, List.filter_flatten, List.map_flatten, List.map_map]
  rfl

theorem unkeyed_append (items more : List Offer) :
    unkeyed field (items ++ more) = unkeyed field items ++ unkeyed field more := by
  rw [unkeyed, List.filter_append, List.map_append, unkeyed, unkeyed]

theorem unkeyed_flatten (groups : List (List Offer)) :
    unkeyed field groups.flatten = (groups.map (unkeyed field)).flatten := by
  rw [unkeyed, List.filter_flatten, List.map_flatten, List.map_map]
  rfl

section Perm

variable {items more : List Offer} (hperm : items.Perm more)
include hperm

theorem keyed_perm : (keyed field items).Perm (keyed field more) := (hperm.filter _).map _

theorem unkeyed_perm : (unkeyed field items).Perm (unkeyed field more) := (hperm.filter _).map _

end Perm

/-- What a group has for itself after some hits without a key. -/
structure HasUnkeyed (limit : Nat) (hits : List Hit) (l : Unkeyed) : Prop where
  capacity : l.best.capacity = limit
  best : l.best.Keeps hits
  count : l.count = hits.length

/-! ### What groups take in -/

/-- What a group has after some matches: the best of those without a key, and all others are on record. -/
structure HasCollapsed (field : String) (limit : Nat) (done : List Offer) (l : Unkeyed) (b : BestPerKey) :
    Prop where
  unkeyed : HasUnkeyed limit (Collector.unkeyed field done) l
  recorded : b.AtLeast (keyed field done)

variable {limit : Nat} {items done : List Offer} {l : Unkeyed} {b : BestPerKey}

/-- A match without a key. -/
theorem HasCollapsed.insert (h : HasCollapsed field limit done l b) {e : Offer}
    (hkey : e.key field = noKey) :
    HasCollapsed field limit (done ++ [e]) { best := l.best.insert e.hit, count := l.count + 1 } b := by
  have hunkeyed : Collector.unkeyed field [e] = [e.hit] := by simp [Collector.unkeyed, hkey]
  have hkeyed : keyed field [e] = [] := by simp [keyed, hkey]
  refine ⟨?_, by rw [keyed_append, hkeyed, List.append_nil]; exact h.recorded⟩
  rw [unkeyed_append, hunkeyed]
  refine ⟨(TopHits.capacity_insert _ _).trans h.unkeyed.capacity, h.unkeyed.best.insert e.hit, ?_⟩
  rw [List.length_append, h.unkeyed.count, List.length_singleton]

/-- A match with a key, when the record is as good as it. -/
theorem HasCollapsed.record (h : HasCollapsed field limit done l b) {e : Offer}
    (hkey : e.key field ≠ noKey) {t : BestPerKey} (hgrows : b.Grows t)
    (hheld : (t.record? (e.key field)).isSome = true ∧ e.hit.pack.word ≤ (t.held (e.key field)).word) :
    HasCollapsed field limit (done ++ [e]) l t := by
  have hunkeyed : Collector.unkeyed field [e] = [] := by simp [Collector.unkeyed, hkey]
  have hkeyed : keyed field [e] = [(e.key field, e.hit)] := by simp [keyed, hkey]
  refine ⟨by rw [unkeyed_append, hunkeyed, List.append_nil]; exact h.unkeyed, ?_⟩
  rw [keyed_append, hkeyed]
  exact List.forall_mem_append.mpr ⟨h.recorded.mono hgrows, List.forall_mem_singleton.mpr hheld⟩

theorem mem_keyed {x : JoinKey × Hit} :
    x ∈ keyed field items ↔ ∃ e ∈ items, e.key field ≠ noKey ∧ (e.key field, e.hit) = x := by
  rw [keyed, List.mem_map]
  simp only [List.mem_filter, decide_eq_true_eq, and_assoc]

/-- **What groups take in.** A group fails only if an update of a record uses up its budget. -/
theorem takes_collapsing (field : String) (limit budget : Nat) (items : List Offer) (spurious : Prop) :
    (collapsing field limit budget).Takes (BestPerKey.sharing (keyed field items) spurious) items
      (HasCollapsed field limit) (HasCollapsed field limit)
      (BestPerKey.GivesUp (keyed field items) spurious budget) where
  has_stable _ _ _ _ hst h := ⟨h.unkeyed, h.recorded.mono hst.1⟩
  left_stable _ _ _ _ hst h := ⟨h.unkeyed, h.recorded.mono hst.1⟩
  start _ _ := ⟨⟨rfl, TopHits.keeps_empty limit, rfl⟩, fun _ hx => absurd hx List.not_mem_nil⟩
  collect done e he l s hs hl := by
    rw [collect_collapsing]
    split
    · rename_i hkey
      exact ensures_pure (hl.insert hkey)
    · rename_i hkey
      have hmem : (e.key field, e.hit) ∈ keyed field items := mem_keyed.mpr ⟨e, he, hkey, rfl⟩
      have hoffer : (BestPerKey.contend (e.key field) e.hit).Ensures
          (BestPerKey.sharing (keyed field items) spurious) _ _ _ :=
        BestPerKey.ensures_contend hmem (hs.2 (BestPerKey.from_empty _ budget))
      rw [hs.1.budget_eq] at hoffer
      exact hoffer.bind fun _ t hst hheld => ensures_pure (hl.record hkey hst.1 hheld)
  finish _ _ _ _ hl := ensures_pure hl

/-! ### The merge -/

/-- The best hits of the groups and those on record are the best of all hits without a key and those
on record. -/
theorem merge_collapsing {limit budget : Nat} {groups : List (List Offer)} {partials : List Unkeyed}
    (h : List.Forall₂ (fun group l => HasUnkeyed limit (unkeyed field group) l) groups partials)
    (b : BestPerKey) :
    (collapsing field limit budget).merge b partials =
      .ok ⟨best Hit.isBefore limit (unkeyed field groups.flatten ++ b.hits),
        b.size + (unkeyed field groups.flatten).length⟩ := by
  have hparts : partials.map (·.best.hits) =
      (groups.map (unkeyed field)).map (best Hit.isBefore limit) ∧
        ∀ count, partials.foldl (fun groups l => groups + l.count) count =
          count + (unkeyed field groups.flatten).length := by
    induction h with
    | nil => exact ⟨rfl, fun _ => rfl⟩
    | cons hl _ ih =>
      obtain ⟨hhits, hcount⟩ := ih
      have hbest := hl.best
      rw [TopHits.Keeps, hl.capacity] at hbest
      refine ⟨?_, fun count => ?_⟩
      · rw [List.map_cons, List.map_cons, List.map_cons, hhits, hbest]
      · rw [List.foldl_cons, hcount, List.flatten_cons, unkeyed_append, List.length_append, hl.count,
          Nat.add_assoc]
  obtain ⟨hhits, hcount⟩ := hparts
  have htop : best Hit.isBefore limit (partials.flatMap (·.best.hits)) =
      best Hit.isBefore limit (unkeyed field groups.flatten) := by
    rw [List.flatMap_def, hhits, Hit.ordersOn_isBefore.best_flatten limit fun _ _ => trivial,
      unkeyed_flatten]
  have hmerge : (collapsing field limit budget).merge b partials =
      .ok ⟨((partials.foldl (fun top l => top.insertAll l.best.hits) (TopHits.empty limit)).insertAll
        b.hits).hits, partials.foldl (fun groups l => groups + l.count) b.size⟩ := rfl
  rw [hmerge, TopHits.foldl_insertAll, ← TopHits.insertAll_append, TopHits.hits_insertAll, hcount,
    ← Hit.ordersOn_isBefore.best_append limit (fun _ _ => trivial) b.hits, htop,
    Hit.ordersOn_isBefore.best_append limit (fun _ _ => trivial) b.hits]

/-- **The merge** when all groups have taken in their matches. -/
theorem merge_takes_collapsing {budget : Nat} {groups : List (List Offer)}
    (hperm : groups.flatten.Perm items) {spurious : Prop} {t : BestPerKey}
    (ht : (BestPerKey.sharing (keyed field items) spurious).may (.empty budget) t)
    {partials : List Unkeyed} (h : List.Forall₂ (HasCollapsed field limit · · t) groups partials) :
    ∃ b : BestPerKey, b.Covers (keyed field items) ∧ (collapsing field limit budget).merge t partials =
      .ok ⟨best Hit.isBefore limit (unkeyed field items ++ b.hits),
        b.size + (unkeyed field items).length⟩ := by
  have hrecorded : t.AtLeast (keyed field items) := by
    intro x hx
    obtain ⟨e, he, hkey, rfl⟩ := mem_keyed.mp hx
    obtain ⟨group, hgroup, he⟩ := List.mem_flatten.mp (hperm.mem_iff.mpr he)
    obtain ⟨l, -, hl⟩ := exists_of_forall₂ h hgroup
    exact hl.recorded _ (mem_keyed.mpr ⟨e, he, hkey, rfl⟩)
  have hunkeyed : (unkeyed field groups.flatten).Perm (unkeyed field items) := unkeyed_perm hperm
  refine ⟨t, (ht.2 (BestPerKey.from_empty _ budget)).covers hrecorded, ?_⟩
  rw [merge_collapsing (h.imp fun _ _ hl => hl.unkeyed), hunkeyed.length_eq,
    Hit.ordersOn_isBefore.best_perm limit (fun _ _ => trivial) (hunkeyed.append_right t.hits)]

end Keyed

/-! ### What is left -/

variable {field : String} {items : List Offer}

/-- The matches without a key, and the most relevant match of each key. -/
def kept (field : String) (items : List Offer) : List Offer :=
  items.filter fun e => e.key field = noKey ∨
    ∀ other ∈ items, other.key field = e.key field → other.hit.isBefore e.hit = false

theorem mem_kept {e : Offer} :
    e ∈ kept field items ↔ e ∈ items ∧ (e.key field = noKey ∨
      ∀ other ∈ items, other.key field = e.key field → other.hit.isBefore e.hit = false) := by
  rw [kept, List.mem_filter, decide_eq_true_iff]

theorem mem_hitsOf_keyed {key : JoinKey} {hit : Hit} :
    hit ∈ BestPerKey.hitsOf (keyed field items) key ↔
      ∃ e ∈ items, e.key field ≠ noKey ∧ e.key field = key ∧ e.hit = hit := by
  rw [BestPerKey.hitsOf, List.mem_map]
  constructor
  · rintro ⟨offer, hmem, rfl⟩
    obtain ⟨hmem, hkey⟩ := List.mem_filter.mp hmem
    obtain ⟨e, he, rfl⟩ := List.mem_map.mp hmem
    obtain ⟨he, hne⟩ := List.mem_filter.mp he
    exact ⟨e, he, of_decide_eq_true hne, of_decide_eq_true hkey, rfl⟩
  · rintro ⟨e, he, hne, rfl, rfl⟩
    refine ⟨(e.key field, e.hit), List.mem_filter.mpr ⟨?_, decide_eq_true rfl⟩, rfl⟩
    exact List.mem_map_of_mem (List.mem_filter.mpr ⟨he, decide_eq_true hne⟩)

section Covers

variable {b : BestPerKey} (hcovers : b.Covers (keyed field items))
  (hdocs : ∀ e ∈ items, e.number ≤ maxPackedDoc)
include hcovers hdocs

/-- The record of a key is the most relevant match of the key. -/
theorem exists_of_record {key : JoinKey} {record : PackedHit} (hrecord : (key, record) ∈ b.records) :
    ∃ e ∈ items, e.key field ≠ noKey ∧ e.key field = key ∧ e.hit = record.unpack ∧
      ∀ other ∈ items, other.key field = key → other.hit.isBefore e.hit = false := by
  have hbest := hcovers.isBest key
  rw [show b.record? key = some record from (BestPerKey.mem_iff_lookup hcovers.nodup).mp hrecord]
    at hbest
  have hfits : ∀ hit ∈ BestPerKey.hitsOf (keyed field items) key, hit.doc ≤ maxPackedDoc := by
    intro hit hmem
    obtain ⟨e, he, -, -, rfl⟩ := mem_hitsOf_keyed.mp hmem
    exact hdocs e he
  obtain ⟨hmem, hfirst⟩ := hbest.unpack hfits
  obtain ⟨e, he, hne, hkey, hhit⟩ := mem_hitsOf_keyed.mp hmem
  refine ⟨e, he, hne, hkey, hhit, fun other hother hsame => ?_⟩
  rw [hhit]
  exact hfirst _ (mem_hitsOf_keyed.mpr ⟨other, hother, hsame ▸ hkey ▸ hne, hsame, rfl⟩)

/-- The most relevant match of a key is on record. -/
theorem mem_hits_of_kept {e : Offer} (he : e ∈ items) (hne : e.key field ≠ noKey)
    (hfirst : ∀ other ∈ items, other.key field = e.key field → other.hit.isBefore e.hit = false) :
    e.hit ∈ b.hits := by
  have hoffered : e.hit ∈ BestPerKey.hitsOf (keyed field items) (e.key field) :=
    mem_hitsOf_keyed.mpr ⟨e, he, hne, rfl, rfl⟩
  have hbest := hcovers.isBest (e.key field)
  rcases hrecord : b.record? (e.key field) with _ | record
  · rw [hrecord] at hbest
    exact absurd (hbest ▸ hoffered) List.not_mem_nil
  · have hmem := (BestPerKey.mem_iff_lookup hcovers.nodup).mpr hrecord
    obtain ⟨best, hbest, -, hkey, hhit, hfirst'⟩ := exists_of_record hcovers hdocs hmem
    have hsame : e.hit = best.hit := Hit.ordersOn_isBefore.total trivial trivial
      (hfirst' e he rfl) (hfirst best hbest hkey)
    rw [hsame, hhit]
    exact List.mem_map_of_mem hmem

variable (hnumbered : Numbered items)
include hnumbered

theorem nodup_hits_of_covers : b.hits.Nodup := by
  refine List.Nodup.map_on (fun r hr r' hr' hsame => ?_) (List.Nodup.of_map _ hcovers.nodup)
  obtain ⟨e, he, -, hkey, hhit, -⟩ := exists_of_record hcovers hdocs hr
  obtain ⟨e', he', -, hkey', hhit', -⟩ := exists_of_record hcovers hdocs hr'
  obtain rfl := hnumbered.eq_of_hit_eq he he' (hhit.trans (hsame.trans hhit'.symm))
  exact List.inj_on_of_nodup_map hcovers.nodup hr hr' (hkey.symm.trans hkey')

/-- **Collapsing** leaves the matches without a key and the most relevant match of each key. -/
theorem collapsed_perm (hnodup : items.Nodup) :
    (unkeyed field items ++ b.hits).Perm ((kept field items).map Offer.hit) := by
  have hleft : (unkeyed field items ++ b.hits).Nodup := by
    refine List.nodup_append.mpr ⟨hnumbered.nodup_hits hnodup (List.filter_sublist ..),
      nodup_hits_of_covers hcovers hdocs hnumbered, ?_⟩
    rintro hit hunkeyed _ hrecord rfl
    obtain ⟨e, he, rfl⟩ := List.mem_map.mp hunkeyed
    obtain ⟨he, hkey⟩ := List.mem_filter.mp he
    obtain ⟨r, hr, hunpack⟩ := List.mem_map.mp hrecord
    obtain ⟨e', he', hne, -, hhit, -⟩ := exists_of_record hcovers hdocs hr
    obtain rfl := hnumbered.eq_of_hit_eq he' he (hhit.trans hunpack)
    exact hne (of_decide_eq_true hkey)
  have hright := hnumbered.nodup_hits hnodup
    (List.filter_sublist .. : (kept field items).Sublist items)
  refine (List.perm_ext_iff_of_nodup hleft hright).mpr fun hit => ?_
  rw [List.mem_append, List.mem_map]
  constructor
  · rintro (hunkeyed | hrecord)
    · obtain ⟨e, he, rfl⟩ := List.mem_map.mp hunkeyed
      obtain ⟨he, hkey⟩ := List.mem_filter.mp he
      exact ⟨e, mem_kept.mpr ⟨he, .inl (of_decide_eq_true hkey)⟩, rfl⟩
    · obtain ⟨⟨key, record⟩, hr, rfl⟩ := List.mem_map.mp hrecord
      obtain ⟨e, he, -, rfl, hhit, hfirst⟩ := exists_of_record hcovers hdocs hr
      exact ⟨e, mem_kept.mpr ⟨he, .inr hfirst⟩, hhit⟩
  · rintro ⟨e, he, rfl⟩
    obtain ⟨he, hkept⟩ := mem_kept.mp he
    by_cases hkey : e.key field = noKey
    · exact .inl (List.mem_map_of_mem (List.mem_filter.mpr ⟨he, decide_eq_true hkey⟩))
    · exact .inr (mem_hits_of_kept hcovers hdocs he hkey (hkept.resolve_left hkey))

end Covers

end Collector

end FederatedSearch
