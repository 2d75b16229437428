import FederatedSearch.Proofs.Collector.Modest
import FederatedSearch.Proofs.Collector.Scheduled
import FederatedSearch.Proofs.NameMap

/-!
# What facets come to

A facet counts the text forms in a field of the matches. Its tallies are known from the matches that
were counted, in whatever order they came and however they were grouped, because a tally lists its
terms by name and adding up tallies adds up the matches that they stand for.

## Main definitions

* `Tally.Counts` — a tally counts some texts
* `Offer.form?` — the text form of a match in a field
* `Collector.facetOf` — the facet that a request asks for

## Main results

* `Tally.Counts.unique` — there is one such tally
* `Collector.takes_faceting`, `Collector.merge_faceting` — the matches of a group, and the merge
-/

namespace FederatedSearch

/-! ### Tallies -/

namespace Tally

/-- The tally says how often each text occurs, and lists none that does not occur. -/
def Counts (t : Tally) (texts : List String) : Prop :=
  ∀ term, t.find? term = if texts.count term = 0 then none else some (texts.count term)

theorem counts_empty : Counts (NameMap.empty : Tally) [] := fun _ => rfl

theorem Counts.unique {t u : Tally} {texts others : List String} (ht : t.Counts texts)
    (hu : u.Counts others) (hperm : texts.Perm others) : t = u := by
  refine NameMap.ext_find? fun term => ?_
  rw [ht, hu, hperm.count_eq]

/-- How often a text was counted. -/
theorem Counts.getD_find? {t : Tally} {texts : List String} (h : t.Counts texts) (term : String) :
    (t.find? term).getD 0 = texts.count term := by
  rw [h]
  split
  · rename_i hzero
    exact hzero.symm
  · rfl

/-- A text that occurs several times more. -/
theorem Counts.add {t : Tally} {texts : List String} (h : t.Counts texts) (term : String)
    {count : Nat} (hcount : count ≠ 0) :
    (t.add term count).Counts (texts ++ List.replicate count term) := by
  intro other
  rw [Tally.add, NameMap.find?_update, h.getD_find?, List.count_append, List.count_replicate]
  by_cases heq : term = other
  · subst heq
    have hpos : ¬ texts.count term + count = 0 := by omega
    rw [if_pos rfl, if_pos BEq.rfl, if_neg hpos]
  · have hne : ¬ (term == other) = true := by simpa using heq
    rw [if_neg heq, h, if_neg hne, Nat.add_zero]

/-- Count texts. -/
def ofTexts (texts : List String) : Tally := texts.foldl (fun t text => t.add text 1) .empty

theorem counts_ofTexts (texts : List String) : (ofTexts texts).Counts texts := by
  have hloop : ∀ (texts done : List String) {t : Tally}, t.Counts done →
      (texts.foldl (fun t text => t.add text 1) t).Counts (done ++ texts) := by
    intro texts
    induction texts with
    | nil =>
      intro done t ht
      simpa using ht
    | cons text texts ih =>
      intro done t ht
      have hrest := ih _ (ht.add text Nat.one_ne_zero)
      rwa [List.append_assoc] at hrest
  exact hloop texts [] counts_empty

/-- The texts that a tally stands for. -/
def texts (t : Tally) : List String := t.entries.flatMap fun e => List.replicate e.2 e.1

theorem count_texts (t : Tally) (term : String) : t.texts.count term = (t.find? term).getD 0 := by
  have hall : ∀ {entries : List (String × Nat)}, Ascending entries →
      (entries.flatMap fun e => List.replicate e.2 e.1).count term =
        ((entries.find? (·.1 = term)).map (·.2)).getD 0 := by
    intro entries h
    induction entries with
    | nil => rfl
    | cons e rest ih =>
      obtain ⟨hfirst, hrest⟩ := List.pairwise_cons.mp h
      rw [List.flatMap_cons, List.count_append, List.count_replicate, ih hrest, List.find?_cons]
      by_cases heq : e.1 = term
      · have hnone : rest.find? (·.1 = term) = none := by
          refine List.find?_eq_none.mpr fun other hmem hname => ?_
          have hlt : e.1 < other.1 := hfirst other hmem
          rw [heq, of_decide_eq_true hname] at hlt
          exact String.lt_irrefl term hlt
        simp [heq, hnone]
      · simp [heq]
  exact hall t.ascending

/-- **Adding up tallies** adds up what they count. -/
theorem Counts.addAll {t u : Tally} {texts more : List String} (ht : t.Counts texts)
    (hu : u.Counts more) : (t.addAll u).Counts (texts ++ more) := by
  have hloop : ∀ (entries : List (String × Nat)) (t : Tally) (texts : List String),
      t.Counts texts → (∀ e ∈ entries, e.2 ≠ 0) →
        (entries.foldl (fun t e => t.add e.1 e.2) t).Counts
          (texts ++ entries.flatMap fun e => List.replicate e.2 e.1) := by
    intro entries
    induction entries with
    | nil => exact fun t texts ht _ => by simpa using ht
    | cons e entries ih =>
      intro t texts ht hpos
      obtain ⟨he, hrest⟩ := List.forall_mem_cons.mp hpos
      have hall := ih _ _ (ht.add e.1 he) hrest
      rwa [List.append_assoc] at hall
  have hpos : ∀ e ∈ u.entries, e.2 ≠ 0 := by
    rintro ⟨term, count⟩ hmem hzero
    rw [NameMap.mem_entries_iff, hu] at hmem
    split at hmem
    · exact absurd hmem (by simp)
    · rename_i hne
      exact hne ((Option.some.inj hmem).trans hzero)
  intro term
  have hall := hloop u.entries t texts ht hpos term
  have hcount : u.texts.count term = more.count term := by rw [count_texts, hu.getD_find?]
  rw [List.count_append] at hall ⊢
  rw [← hcount]
  exact hall

end Tally

/-! ### Counting matches -/

/-- The text form of a match in a field, if it has a value there. -/
def Offer.form? (field : String) (e : Offer) : Option String :=
  match e.1.segment.value field e.2.doc with
  | .ok value => value.map (·.form)
  | .error _ => none

namespace Collector

/-- For each request there is a tally that counts the text forms of the matches. -/
def Tallied (requests : List FacetRequest) (items : List Offer) (tallies : List Tally) : Prop :=
  List.Forall₂ (fun r t => Tally.Counts t (items.filterMap (Offer.form? r.field))) requests tallies

variable {requests : List FacetRequest} {items more : List Offer} {tallies others : List Tally}

theorem tallied_empty (requests : List FacetRequest) :
    Tallied requests [] (requests.map fun _ => .empty) := by
  induction requests with
  | nil => exact .nil
  | cons r requests ih => exact .cons Tally.counts_empty ih

/-- One more match in a segment that can be read. -/
theorem Tallied.tallyDocument (h : Tallied requests items tallies) {e : Offer}
    {segment : IndexedSegment} (hsegment : e.1.segment = .indexed segment) :
    ∃ tallies', FederatedSearch.tallyDocument e.1.segment e.2.doc requests tallies = .ok tallies' ∧
      Tallied requests (items ++ [e]) tallies' := by
  induction h with
  | nil => exact ⟨[], rfl, .nil⟩
  | @cons r t requests tallies ht _ ih =>
    obtain ⟨rest, hrest, htallied⟩ := ih
    have hvalue : e.1.segment.value r.field e.2.doc = .ok (segment.value r.field e.2.doc) := by
      rw [hsegment]
      rfl
    have hform : e.form? r.field = (segment.value r.field e.2.doc).map (·.form) := by
      rw [Offer.form?, hvalue]
    refine ⟨_, by rw [FederatedSearch.tallyDocument, hvalue, ok_bind, hrest, ok_bind]; rfl,
      .cons ?_ htallied⟩
    rw [List.filterMap_append]
    rcases hv : segment.value r.field e.2.doc with _ | v
    · rw [hv] at hform
      simpa [hform] using ht
    · rw [hv] at hform
      simpa [hform] using ht.add v.form Nat.one_ne_zero

theorem Tallied.addTallies (h : Tallied requests items tallies) (h' : Tallied requests more others) :
    Tallied requests (items ++ more) (FederatedSearch.addTallies tallies others) := by
  induction h generalizing others with
  | nil =>
    cases h' with
    | nil => exact .nil
  | cons ht _ ih =>
    cases h' with
    | cons hu hrest =>
      refine .cons ?_ (ih hrest)
      rw [List.filterMap_append]
      exact ht.addAll hu

/-- The tallies of groups add up. -/
theorem Tallied.foldl_addTallies {groups : List (List Offer)} {locals : List (List Tally)}
    (h : List.Forall₂ (Tallied requests) groups locals) (htallies : Tallied requests items tallies) :
    Tallied requests (items ++ groups.flatten)
      (locals.foldl FederatedSearch.addTallies tallies) := by
  induction h generalizing items tallies with
  | nil => simpa using htallies
  | cons hgroup _ ih =>
    have hall := ih (htallies.addTallies hgroup)
    rwa [List.append_assoc, ← List.flatten_cons] at hall

/-- The facet that a request asks for, from the matches. -/
def facetOf (items : List Offer) (r : FacetRequest) : Facet :=
  r.report (Tally.ofTexts (items.filterMap (Offer.form? r.field)))

theorem facetOf_perm (hperm : items.Perm more) (r : FacetRequest) :
    facetOf items r = facetOf more r := by
  rw [facetOf, facetOf, (Tally.counts_ofTexts _).unique (Tally.counts_ofTexts _) (hperm.filterMap _)]

theorem Tallied.zipWith_report (h : Tallied requests items tallies) :
    List.zipWith FacetRequest.report requests tallies = requests.map (facetOf items) := by
  induction h with
  | nil => rfl
  | cons ht _ ih =>
    rw [List.zipWith_cons_cons, ih, ht.unique (Tally.counts_ofTexts _) (.refl _)]
    rfl

/-- Counting a match cannot fail. -/
theorem takes_faceting (hindexed : ∀ e ∈ items, ∃ segment, e.1.segment = .indexed segment) :
    (faceting requests).Takes .any items (fun done tallies _ => Tallied requests done tallies)
      (fun done tallies _ => Tallied requests done tallies) fun _ => False := by
  refine takes_of_endsOnly (tallied_empty requests) (fun done e he tallies htallied => ?_)
    fun _ _ htallied => htallied
  obtain ⟨segment, hsegment⟩ := hindexed e he
  obtain ⟨tallies', hok, hmore⟩ := htallied.tallyDocument hsegment
  show (Process.ofExcept (tallyDocument e.1.segment e.2.doc requests tallies)).EndsOnly _ _
  rw [hok]
  exact hmore

/-- **Facets** count the matches of all groups. -/
theorem merge_faceting {groups : List (List Offer)} {partials : List (List Tally)}
    (h : List.Forall₂ (Tallied requests) groups partials) :
    (faceting requests).merge () partials = .ok (requests.map (facetOf groups.flatten)) := by
  have htotals : Tallied requests groups.flatten _ :=
    Tallied.foldl_addTallies h (tallied_empty requests)
  exact congrArg Except.ok htotals.zipWith_report

variable [PatternEngines] (core : String) (groups : List (List Placed)) (query : Query)

/-- **A search for facets** counts the matches of all segments. -/
theorem comes_faceting (hrequests : requests ≠ []) :
    (faceting requests).Comes core groups query
      (fun facets => CanSearch query groups.flatten ∧
        facets = requests.map (facetOf (offers query groups.flatten)))
      fun _ => ¬ CanSearch query groups.flatten := by
  have hplain := plain_faceting requests
  rw [if_neg (by simpa using hrequests)] at hplain
  refine ((takes_faceting fun e he => indexed_of_mem_offers he).comes hplain (List.Subset.refl _)
    (fun _ => id) (fun _ _ partials _ hall => ?_) trivial core).mono (fun _ h => h)
    fun _ h => h.resolve_left id
  rw [merge_faceting hall, offers_flatten]
  exact (rfl : requests.map (facetOf (offers query groups.flatten)) = _)

/-- Without requests no document is seen. -/
theorem comes_faceting_nil :
    (faceting []).Comes core groups query (· = []) fun _ => False :=
  (takes_faceting fun _ he => absurd he List.not_mem_nil).comes_skip (plain_faceting [])
    (fun _ _ => ⟨[], rfl⟩) (fun _ => id)
    (fun _ _ _ hall => by rw [merge_faceting hall]; exact (rfl : ([] : List Facet) = [])) trivial core

end Collector

end FederatedSearch
