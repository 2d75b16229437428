import FederatedSearch.Proofs.Search.Offers

/-!
# What groups take in

A plain collector that wants to see the documents is offered the matches of a group when the group runs.
While the group takes them in, others may change the board, as a regime allows. So what searches come to
can be shown match by match, for any schedule at once: it is enough to know what a group has when it
starts, what one more match does to that, and what it leaves in the end (`Collector.Takes`).

Such a search succeeds only if every segment can be searched. Nothing has to be assumed about segments for
this.

## Main definitions

* `Collector.Takes` — what a group has after some matches, and what it leaves

## Main results

* `Takes.ensures_readGroup` — a whole group
* `Takes.comes`, `Takes.searchGroups` — searches on any schedule
* `Takes.comes_skip` — searches that skip all documents
-/

namespace FederatedSearch

namespace Collector

open Process

variable {B L P F : Type}

/-- What a group has after some matches, and what it leaves in the end, if others keep to the regime in
the meantime. The group keeps to it as well. -/
structure Takes (c : Collector B L P F) (R : Regime B) (items : List Offer)
    (has : List Offer → L → B → Prop) (left : List Offer → P → B → Prop) (bad : Failure → Prop) :
    Prop where
  has_stable : ∀ done l, R.Stable (has done l)
  left_stable : ∀ done p, R.Stable (left done p)
  start : ∀ s, R.may c.board s → c.start.Ensures R (has []) bad s
  collect : ∀ done, ∀ e ∈ items, ∀ l s, R.may c.board s → has done l s →
    (c.collect (.of e.1) e.2 l).Ensures R (has (done ++ [e])) bad s
  finish : ∀ done l s, R.may c.board s → has done l s → (c.finish l).Ensures R (left done) bad s

/-- A collector that never looks at its board. -/
theorem takes_of_endsOnly {c : Collector B L P F} {items : List Offer} {has : List Offer → L → Prop}
    {left : List Offer → P → Prop} {bad : Failure → Prop} (hstart : c.start.EndsOnly (has []) bad)
    (hcollect : ∀ done, ∀ e ∈ items, ∀ l, has done l →
      (c.collect (.of e.1) e.2 l).EndsOnly (has (done ++ [e])) bad)
    (hfinish : ∀ done l, has done l → (c.finish l).EndsOnly (left done) bad) :
    c.Takes .any items (fun done l _ => has done l) (fun done p _ => left done p) bad where
  has_stable _ _ _ _ _ h := h
  left_stable _ _ _ _ _ h := h
  start s _ := hstart.ensures s
  collect done e he l s _ hl := (hcollect done e he l hl).ensures s
  finish done l s _ hl := (hfinish done l hl).ensures s

section Takes

variable {c : Collector B L P F} {R : Regime B} {items : List Offer} {has : List Offer → L → B → Prop}
  {left : List Offer → P → B → Prop} {bad : Failure → Prop} (h : c.Takes R items has left bad)
include h

/-- **Some matches** in a row. -/
theorem Takes.ensures_foldlM {more : List Offer} (hmore : more ⊆ items) {done : List Offer} {l : L}
    {s : B} (hs : R.may c.board s) (hl : has done l s) :
    (more.foldlM (fun l e => c.collect (.of e.1) e.2 l) l).Ensures R (has (done ++ more)) bad s := by
  refine Process.ensures_foldlM (fun taken l t => has (done ++ taken) l t)
    (fun taken e he l t hst hl => ?_) [] (by rwa [List.append_nil])
  rw [← List.append_assoc]
  exact h.collect (done ++ taken) e (hmore he) l t (R.trans hs hst) hl

variable [PatternEngines] {fields : List String} {query : Query}

/-- **A whole group.** It fails if there is a segment that cannot be searched. -/
theorem Takes.ensures_readGroup (hplain : c.Plain .docs fields) {group : List Placed}
    (hitems : offers query group ⊆ items) {s : B} (hs : R.may c.board s) :
    (c.readGroup query group).Ensures R
      (fun p t => CanSearch query group ∧ left (offers query group) p t)
      (fun failure => bad failure ∨ ¬ CanSearch query group) s := by
  refine ((h.start s hs).mono (fun _ _ _ h => h) fun _ => .inl).bind fun l t hst hl => ?_
  have hloop : (group.foldlM (c.readSegment query) l).Ensures R
      (fun l t => CanSearch query group ∧ has (offers query group) l t)
      (fun failure => bad failure ∨ ¬ CanSearch query group) t := by
    refine Process.ensures_foldlM (fun done l t => CanSearch query done ∧ has (offers query done) l t)
      (fun done placed hmem l u htu hl => ?_) [] ⟨nofun, hl⟩
    by_cases hsearch : ∃ hits, placed.segment.search query true = .ok hits
    · have hmore : offers query [placed] ⊆ items :=
        List.Subset.trans (offers_subset (List.cons_subset.mpr ⟨hmem, List.nil_subset _⟩)) hitems
      rw [hplain.readSegment_docs hsearch]
      refine (h.ensures_foldlM hmore (R.trans hs (R.trans hst htu)) hl.2).mono (fun l v _ hl' => ⟨?_, ?_⟩)
        fun _ => .inl
      · exact List.forall_mem_append.mpr ⟨hl.1, List.forall_mem_singleton.mpr hsearch⟩
      · rwa [offers, List.flatMap_append]
    · obtain ⟨failure, hfails⟩ := hplain.readSegment_of_not_search hsearch l
      rw [hfails]
      exact .inr fun hall => hsearch (hall placed hmem)
  refine hloop.bind fun l u htu hl => ?_
  exact (h.finish _ l u (R.trans hs (R.trans hst htu)) hl.2).mono (fun p v _ hp => ⟨hl.1, hp⟩) fun _ => .inl

variable (hplain : c.Plain .docs fields) {groups : List (List Placed)}
  (hitems : offers query groups.flatten ⊆ items)

include hplain hitems

/-- A group among others. -/
theorem Takes.ensures_group {worse : Failure → Prop} (hbad : ∀ failure, bad failure → worse failure)
    {group : List Placed} (hgroup : group ∈ groups) :
    (c.readGroup query group).Ensures R
      (fun p t => CanSearch query group ∧ left (offers query group) p t)
      (fun failure => worse failure ∨ ¬ CanSearch query groups.flatten) c.board := by
  have hmore : offers query group ⊆ items := List.Subset.trans (offers_subset fun placed hmem =>
    List.mem_flatten.mpr ⟨group, hgroup, hmem⟩) hitems
  exact (h.ensures_readGroup hplain hmore (R.refl _)).mono (fun _ _ _ h => h)
    fun failure => Or.imp (hbad failure) (mt fun hcan => hcan.group hgroup)

variable {good : F → Prop} {worse : Failure → Prop} (hbad : ∀ failure, bad failure → worse failure)
  (hmerge : CanSearch query groups.flatten → ∀ t partials, R.may c.board t →
    List.Forall₂ (left · · t) (groups.map (offers query)) partials → Meets good worse (c.merge t partials))
include hmerge

omit h hplain hitems in
/-- What groups have left is merged if every segment could be searched. -/
theorem merge_takes {t : B} {partials : List P} (ht : R.may c.board t)
    (hall : List.Forall₂ (fun group p => CanSearch query group ∧ left (offers query group) p t) groups
      partials) :
    Meets (fun x => CanSearch query groups.flatten ∧ good x)
      (fun failure => worse failure ∨ ¬ CanSearch query groups.flatten) (c.merge t partials) := by
  have hcan : CanSearch query groups.flatten := by
    intro placed hmem
    obtain ⟨group, hgroup, hplaced⟩ := List.mem_flatten.mp hmem
    obtain ⟨p, -, hsearch, -⟩ := exists_of_forall₂ hall hgroup
    exact hsearch placed hplaced
  exact (hmerge hcan t partials ht (List.forall₂_map_left_iff.mpr (hall.imp fun _ _ h => h.2))).mono
    (fun _ hgood => ⟨hcan, hgood⟩) fun _ => .inl

include hbad

/-- **Searches without a memory**, on any schedule. -/
theorem Takes.comes (hspurious : R.spurious) (core : String) :
    c.Comes core groups query (fun x => CanSearch query groups.flatten ∧ good x)
      fun failure => worse failure ∨ ¬ CanSearch query groups.flatten :=
  fun _ => ensures_readScheduled (fun _ hgroup => h.ensures_group hplain hitems hbad hgroup)
    (fun _ p s t hst hp => ⟨hp.1, h.left_stable _ p s t hst hp.2⟩)
    (fun _ _ ht hall => merge_takes hmerge ht hall) (fun _ _ _ => hspurious) core

/-- **Searches on a schedule** on which exchanges fail as the regime allows. -/
theorem Takes.searchGroups {view : L → List String} (hmodest : c.Modest view) {catalog : Catalog}
    (w : Workshop) (hlists : ∀ placed ∈ groups.flatten, catalog.Lists placed.segment)
    {columns : KeyColumns} (hcolumns : columns.Sound catalog) {schedule : Schedule}
    (hspurious : ∀ turn ∈ schedule, turn.spurious = true → R.spurious) (core : String) :
    Meets (fun x => CanSearch query groups.flatten ∧ good x)
      (fun failure => worse failure ∨ ¬ CanSearch query groups.flatten)
      ((c.searchGroups w schedule core groups query).result (columns, c.board)).1 :=
  (hmodest.ensures_searchGroups w query
    (fun group hgroup placed hmem => hlists placed (List.mem_flatten.mpr ⟨group, hgroup, hmem⟩)) hcolumns
    schedule (fun _ hgroup => h.ensures_group hplain hitems hbad hgroup)
    (fun _ p s t hst hp => ⟨hp.1, h.left_stable _ p s t hst hp.2⟩)
    (fun _ _ ht hall => merge_takes hmerge ht hall) hspurious).2.2

omit hplain hitems hmerge hbad in
/-- **Searches that skip all documents** merge what groups leave that have taken in nothing. -/
theorem Takes.comes_skip (hplain : c.Plain .skip fields)
    (hcolumns : ∀ placed ∈ groups.flatten, ∃ columns, readColumns placed.segment fields = .ok columns)
    (hbad : ∀ failure, bad failure → worse failure)
    (hmerge : ∀ t partials, R.may c.board t →
      List.Forall₂ (left · · t) (groups.map fun _ => []) partials → Meets good worse (c.merge t partials))
    (hspurious : R.spurious) (core : String) : c.Comes core groups query good worse := by
  have hgroups : ∀ group ∈ groups, (c.readGroup query group).Ensures R (left []) worse c.board := by
    intro group hgroup
    rw [hplain.readGroup_skip fun placed hmem =>
      hcolumns placed (List.mem_flatten.mpr ⟨group, hgroup, hmem⟩)]
    refine ((h.start _ (R.refl _)).mono (fun _ _ _ h => h) hbad).bind fun l t ht hl => ?_
    exact (h.finish [] l t ht hl).mono (fun _ _ _ h => h) hbad
  exact fun _ => ensures_readScheduled hgroups (fun _ => h.left_stable [])
    (fun t partials ht hall => hmerge t partials ht (List.forall₂_map_left_iff.mpr hall))
    (fun _ _ _ => hspurious) core

end Takes

end Collector

end FederatedSearch
