import FederatedSearch.Proofs.Cache.Catalog
import FederatedSearch.Proofs.Search.Beside
import FederatedSearch.Proofs.Search.Ensured
import FederatedSearch.Proofs.Search.Partition

/-!
# Searches without a memory

A search loads key columns through those that are remembered, and asks for scores only if they are wanted.
None of this shows in its result. `Collector.readScheduled` is the search as one would like to think of it,
with the columns as the segments have them and every match with its score. Each group of a search on sound
columns does to the board what the group does without a memory, and takes some steps besides, for the
columns. So what the search comes to on some schedule the search without a memory comes to on some other
one, and the other way round.

For this a collector has to be modest: of the columns at hand it looks at those that it asked for
when it was bound, and it looks at no scores that it did not ask for.

## Main definitions

* `Bound.of` — a segment with all its columns
* `Collector.readSegment`, `readGroup`, `readScheduled` — the search without a memory
* `Collector.Modest` — what is asked of a collector
* `Collector.Comes` — what a search without a memory can come to

## Main results

* `Modest.shadows_runGroup` — a group does what the group without a memory does
* `Modest.exists_readScheduled`, `Modest.exists_searchGroups` — from one search to the other
* `ensures_readScheduled`, `Modest.ensures_searchGroups` — searches whose groups ensure something
* `Comes.searchGroups` — what a search on sound columns comes to
-/

namespace FederatedSearch

/-- The column of a field as the segment has it. -/
def Segment.column (s : Segment) (field : String) : KeyColumn :=
  match s.joinKeys field with
  | .ok column => column
  | .error _ => #[]

/-- A segment with all its columns. -/
def Bound.of (placed : Placed) : Bound := ⟨some placed, placed.segment.column⟩

@[simp] theorem Bound.of_placed (placed : Placed) : (Bound.of placed).placed = some placed := rfl

/-- What was read for a field is its column. -/
theorem lookup_of_readColumns {s : Segment} {fields : List String} {columns : List (String × KeyColumn)}
    (h : readColumns s fields = .ok columns) {field : String} (hmem : field ∈ fields) :
    (columns.lookup field).getD #[] = s.column field := by
  induction fields generalizing columns with
  | nil => exact absurd hmem List.not_mem_nil
  | cons other fields ih =>
    rw [readColumns_cons] at h
    obtain ⟨column, hread, h⟩ := bind_eq_ok.mp h
    obtain ⟨rest, hrest, h⟩ := bind_eq_ok.mp h
    obtain rfl : (other, column) :: rest = columns := Except.ok.inj h
    by_cases heq : field = other
    · subst heq
      simp [Segment.column, hread]
    · have hmem' : field ∈ fields := (List.mem_cons.mp hmem).resolve_left heq
      rw [List.lookup_cons, beq_false_of_ne heq]
      exact ih hrest hmem'

namespace Collector

variable {B L P F : Type} (c : Collector B L P F)

/-! ### The search without a memory -/

variable [PatternEngines]

def readSegment (query : Query) (l : L) (placed : Placed) : Process B L := do
  let binding ← c.bind placed l
  let _ ← .ofExcept (readColumns placed.segment binding.fields)
  match binding.visit with
  | .skip => return binding.state
  | .docs =>
    let hits ← .ofExcept (placed.segment.search query true)
    let l ← hits.foldlM (fun l hit => c.collect (.of placed) hit l) binding.state
    c.endSegment (.of placed) l

def readGroup (query : Query) (group : List Placed) : Process B P := do
  let l ← c.start
  let l ← group.foldlM (c.readSegment query) l
  c.finish l

def readScheduled (schedule : Schedule) (core : String) (groups : List (List Placed)) (query : Query) :
    Act B F := do
  let partials ← Gathering.gather core schedule (groups.map (c.readGroup query))
  Act.ofExcept (c.merge (← get) partials)

theorem result_readScheduled (schedule : Schedule) (core : String) (groups : List (List Placed))
    (query : Query) (s : B) :
    (c.readScheduled schedule core groups query).result s =
      match (Gathering.gather core schedule (groups.map (c.readGroup query))).result s with
      | (.ok partials, t) => (c.merge t partials, t)
      | (.error failure, t) => (.error failure, t) := by
  rw [readScheduled, Act.result_bind]
  rcases (Gathering.gather core schedule (groups.map (c.readGroup query))).result s with
    ⟨_ | _, t⟩ <;> rfl

/-! ### What groups ensure -/

section Ensured

variable {c} {R : Regime B} {left : List Placed → P → B → Prop} {good : F → Prop} {bad : Failure → Prop}
  {query : Query} {groups : List (List Placed)} {s : B} {schedule : Schedule}

/-- **What a search comes to**, whatever its schedule, if each group ensures something and the partial
results of the groups can be merged. -/
theorem ensures_readScheduled
    (hgroups : ∀ group ∈ groups, (c.readGroup query group).Ensures R (left group) bad s)
    (hstable : ∀ group p, R.Stable (left group p))
    (hmerge : ∀ t partials, R.may s t → List.Forall₂ (fun group p => left group p t) groups partials →
      Meets good bad (c.merge t partials))
    (hspurious : ∀ turn ∈ schedule, turn.spurious = true → R.spurious) (core : String) :
    Meets good bad ((c.readScheduled schedule core groups query).result s).1 := by
  obtain ⟨hmay, hends⟩ := Gathering.ensures_gather hgroups hstable hspurious core
  rw [result_readScheduled]
  rcases hr : (Gathering.gather core schedule (groups.map (c.readGroup query))).result s with
    ⟨failure | partials, t⟩ <;> rw [hr] at hmay hends
  · exact hends
  · exact hmerge t partials hmay hends

end Ensured

/-! ### Modest collectors -/

/-- A collector that takes no more than it asked for. When a local state has been bound to a
segment, `view` lists the fields whose columns it is still going to look at. -/
structure Modest (view : L → List String) : Prop where
  asks : ∀ placed l, (c.bind placed l).EndsOnly
    (fun b => b.visit = .docs → view b.state ⊆ b.fields) fun _ => True
  keeps : ∀ bound hit l, (c.collect bound hit l).EndsOnly (fun l' => view l' ⊆ view l) fun _ => True
  collects : ∀ {bound other : Bound} {l : L}, bound.placed = other.placed →
    (∀ field ∈ view l, bound.columns field = other.columns field) →
      ∀ hit, c.collect bound hit l = c.collect other hit l
  ends : ∀ {bound other : Bound} {l : L}, bound.placed = other.placed →
    (∀ field ∈ view l, bound.columns field = other.columns field) →
      c.endSegment bound l = c.endSegment other l
  unscored : c.needsScores = false → ∀ bound hit score l,
    c.collect bound { hit with score := score } l = c.collect bound hit l

/-! ### Scores that are not wanted -/

theorem search_eq_map (s : Segment) (query : Query) (scored : Bool) :
    s.search query scored = (s.search query true).map fun hits =>
      hits.map fun hit => if scored then hit else { hit with score := .zero } := by
  cases s with
  | damaged s => rfl
  | indexed s =>
    simp only [Segment.search, IndexedSegment.search]
    rcases s.matching query with failure | found
    · rfl
    · cases scored <;> simp [Except.map, pure, Except.pure]

/-! ### What a modest collector does -/

section Modest

open Process

variable {c} {view : L → List String} (h : c.Modest view) {catalog : Catalog} (w : Workshop)
  (query : Query)
include h

/-- Of the columns of a segment, those that were loaded are as good as all. -/
theorem Modest.shadows_visit (placed : Placed) {fields : List String}
    {columns : List (String × KeyColumn)} (hcolumns : readColumns placed.segment fields = .ok columns)
    {l : L} (hview : view l ⊆ fields) (bound : Bound)
    (hbound : bound = ⟨some placed, fun field => (columns.lookup field).getD #[]⟩) :
    Shadows (Besides (KeyColumns.Sound catalog)) Eq
      (ofExcept (placed.segment.search query c.needsScores) >>= fun hits =>
        hits.foldlM (fun l hit => (c.collect bound hit l).focus .second) l >>= fun l =>
          (c.endSegment bound l).focus .second)
      (ofExcept (placed.segment.search query true) >>= fun hits =>
        hits.foldlM (fun l hit => c.collect (.of placed) hit l) l >>= c.endSegment (.of placed)) := by
  have hplaced : bound.placed = (Bound.of placed).placed := by rw [hbound]; rfl
  have hsame : ∀ {l : L}, view l ⊆ fields → ∀ field ∈ view l,
      bound.columns field = (Bound.of placed).columns field := by
    intro l hl field hmem
    rw [hbound]
    exact lookup_of_readColumns hcolumns (hl hmem)
  rw [search_eq_map]
  rcases placed.segment.search query true with failure | hits
  · exact .fails
  simp only [Except.map, ofExcept_ok_bind, List.foldlM_map]
  have hloop : Shadows (Besides (KeyColumns.Sound catalog)) (fun l l' => l = l' ∧ view l' ⊆ fields)
      (hits.foldlM (fun l hit => (c.collect bound
        (if c.needsScores then hit else { hit with score := .zero }) l).focus .second) l)
      (hits.foldlM (fun l hit => c.collect (.of placed) hit l) l) := by
    refine Shadows.foldlM (fun hit _ => ?_) ⟨rfl, hview⟩
    rintro l _ ⟨rfl, hl⟩
    have hhit : c.collect bound (if c.needsScores then hit else { hit with score := .zero }) l =
        c.collect (.of placed) hit l := by
      rw [← h.collects hplaced (hsame hl)]
      split
      · rfl
      · rename_i hscores
        exact h.unscored (by simpa using hscores) _ _ _ _
    rw [hhit]
    exact shadows_second ((h.keeps _ hit l).mono (fun _ hl' => List.Subset.trans hl' hl) fun _ h => h)
  refine hloop.bind ?_
  rintro l _ ⟨rfl, hl⟩
  rw [h.ends hplaced (hsame hl)]
  exact shadows_second_eq _ _

theorem Modest.shadows_runSegment {placed : Placed} (hlists : catalog.Lists placed.segment) (l : L) :
    Shadows (Besides (KeyColumns.Sound catalog)) Eq (c.runSegment w query l placed)
      (c.readSegment query l placed) := by
  rw [runSegment, openSegment, readSegment]
  simp only [bind_assoc, pure_bind]
  refine (shadows_second (h.asks placed l)).bind ?_
  rintro binding _ ⟨rfl, hasks⟩
  refine (shadows_loadColumns hlists w.live binding.fields).bind ?_
  rintro columns _ ⟨rfl, hcolumns⟩
  cases hvisit : binding.visit with
  | skip => exact shadows_pure rfl
  | docs => exact h.shadows_visit query placed hcolumns (hasks hvisit) _ rfl

/-- **A group** does what the group without a memory does, and loads columns besides. -/
theorem Modest.shadows_runGroup {group : List Placed}
    (hlists : ∀ placed ∈ group, catalog.Lists placed.segment) :
    Shadows (Besides (KeyColumns.Sound catalog)) Eq (c.runGroup w query group)
      (c.readGroup query group) := by
  refine (shadows_second_eq _ c.start).bind ?_
  rintro l _ rfl
  refine Shadows.bind (Shadows.foldlM (fun placed hmem l _ hl => ?_) rfl) ?_
  · subst hl
    exact h.shadows_runSegment w query (hlists placed hmem) l
  · rintro l _ rfl
    exact shadows_second_eq _ (c.finish l)

variable {core : String} {groups : List (List Placed)}
  (hlists : ∀ group ∈ groups, ∀ placed ∈ group, catalog.Lists placed.segment) {s : Workbench B}
  (hs : KeyColumns.Sound catalog s.1) (schedule : Schedule)
include hlists hs

/-- What a search comes to, the search without a memory comes to on some schedule. -/
theorem Modest.exists_readScheduled :
    ∃ schedule', ((c.searchGroups w schedule core groups query).result s).1 =
      ((c.readScheduled schedule' core groups query).result s.2).1 := by
  obtain ⟨schedule', hsame, hstore⟩ := Gathering.exists_gather_shadows
    (fun group hgroup => h.shadows_runGroup w query (hlists group hgroup))
    (show Besides (KeyColumns.Sound catalog) s s.2 from ⟨hs, rfl⟩) core schedule
  refine ⟨schedule', ?_⟩
  rw [result_searchGroups, result_readScheduled]
  rcases hr : (Gathering.gather core schedule (groups.map (c.runGroup w query))).result s with
    ⟨failure | partials, t⟩ <;>
    rcases hr' : (Gathering.gather core schedule' (groups.map (c.readGroup query))).result s.2 with
      ⟨failure' | partials', t'⟩ <;> rw [hr, hr'] at hsame hstore
  · exact congrArg _ (Except.error.inj hsame)
  · exact absurd hsame error_ne_ok
  · exact absurd hsame ok_ne_error
  · obtain rfl := Except.ok.inj hsame
    show c.merge t.2 partials = c.merge t' partials
    rw [(hstore partials rfl).2]

/-- What the search without a memory comes to, a search comes to on some schedule. -/
theorem Modest.exists_searchGroups :
    ∃ schedule', ((c.readScheduled schedule core groups query).result s.2).1 =
      ((c.searchGroups w schedule' core groups query).result s).1 := by
  obtain ⟨schedule', hsame, hstore⟩ := Gathering.exists_gather_of_shadows
    (fun group hgroup => h.shadows_runGroup w query (hlists group hgroup))
    (show Besides (KeyColumns.Sound catalog) s s.2 from ⟨hs, rfl⟩) core schedule
  refine ⟨schedule', ?_⟩
  rw [result_searchGroups, result_readScheduled]
  rcases hr : (Gathering.gather core schedule' (groups.map (c.runGroup w query))).result s with
    ⟨failure | partials, t⟩ <;>
    rcases hr' : (Gathering.gather core schedule (groups.map (c.readGroup query))).result s.2 with
      ⟨failure' | partials', t'⟩ <;> rw [hr, hr'] at hsame hstore
  · exact congrArg _ (Except.error.inj hsame)
  · exact absurd hsame ok_ne_error
  · exact absurd hsame error_ne_ok
  · obtain rfl := Except.ok.inj hsame
    show c.merge t' partials' = c.merge t.2 partials'
    rw [(hstore partials' rfl).2]

omit hlists hs in
/-- What a group ensures on the board it ensures beside the columns, and it keeps these sound. -/
theorem Modest.ensures_runGroup {R : Regime B} {left : P → B → Prop} {bad : Failure → Prop}
    {group : List Placed} (hlists : ∀ placed ∈ group, catalog.Lists placed.segment)
    (hs : KeyColumns.Sound catalog s.1) (hstable : ∀ p, R.Stable (left p))
    (hgroup : (c.readGroup query group).Ensures R left bad s.2) :
    (c.runGroup w query group).Ensures (R.besides (KeyColumns.Sound catalog)) (fun p t => left p t.2) bad
      s := by
  refine ((h.shadows_runGroup w query hlists).ensures hstable hs hgroup).mono ?_ fun _ h => h
  rintro _ t - ⟨p, rfl, hp⟩
  exact hp

/-- **What a search on sound columns comes to**, if each group without a memory ensures something and the
partial results of the groups can be merged. The columns stay sound also if it fails. -/
theorem Modest.ensures_searchGroups {R : Regime B} {left : List Placed → P → B → Prop} {good : F → Prop}
    {bad : Failure → Prop}
    (hgroups : ∀ group ∈ groups, (c.readGroup query group).Ensures R (left group) bad s.2)
    (hstable : ∀ group p, R.Stable (left group p))
    (hmerge : ∀ t partials, R.may s.2 t → List.Forall₂ (fun group p => left group p t) groups partials →
      Meets good bad (c.merge t partials))
    (hspurious : ∀ turn ∈ schedule, turn.spurious = true → R.spurious) :
    KeyColumns.Sound catalog ((c.searchGroups w schedule core groups query).result s).2.1 ∧
      R.may s.2 ((c.searchGroups w schedule core groups query).result s).2.2 ∧
      Meets good bad ((c.searchGroups w schedule core groups query).result s).1 := by
  have hruns : ∀ group ∈ groups, (c.runGroup w query group).Ensures
      (R.besides (KeyColumns.Sound catalog)) (fun p t => left group p t.2) bad s :=
    fun group hmem => h.ensures_runGroup w query (hlists group hmem) hs (hstable group) (hgroups group hmem)
  obtain ⟨hmay, hends⟩ := Gathering.ensures_gather hruns
    (fun group p t u htu => hstable group p t.2 u.2 htu.2) hspurious core
  rw [result_searchGroups]
  rcases hr : (Gathering.gather core schedule (groups.map (c.runGroup w query))).result s with
    ⟨failure | partials, t⟩ <;> rw [hr] at hmay hends
  · exact ⟨hmay.1 hs, hmay.2, hends⟩
  · exact ⟨hmay.1 hs, hmay.2, hmerge t.2 partials hmay.2 hends⟩

end Modest

/-! ### What searches come to -/

/-- On every schedule the search without a memory comes to something `good`, or it fails in a way that is
`bad`. -/
def Comes (core : String) (groups : List (List Placed)) (query : Query) (good : F → Prop)
    (bad : Failure → Prop) : Prop :=
  ∀ schedule, Meets good bad ((c.readScheduled schedule core groups query).result c.board).1

section Comes

variable {c} {core : String} {groups : List (List Placed)} {query : Query} {good : F → Prop}
  {bad : Failure → Prop} (h : c.Comes core groups query good bad)
include h

theorem Comes.mono {good' : F → Prop} {bad' : Failure → Prop} (hgood : ∀ x, good x → good' x)
    (hbad : ∀ failure, bad failure → bad' failure) : c.Comes core groups query good' bad' :=
  fun schedule => (h schedule).mono hgood hbad

theorem Comes.of_gather_ok {schedule : Schedule} {partials : List P} {t : B}
    (hr : (Gathering.gather core schedule (groups.map (c.readGroup query))).result c.board =
      (.ok partials, t)) : Meets good bad (c.merge t partials) := by
  have hends := h schedule
  rwa [result_readScheduled, hr] at hends

theorem Comes.of_gather_error {schedule : Schedule} {failure : Failure}
    (hr : ((Gathering.gather core schedule (groups.map (c.readGroup query))).result c.board).1 =
      .error failure) : bad failure := by
  have hends := h schedule
  rw [result_readScheduled] at hends
  rcases hg : (Gathering.gather core schedule (groups.map (c.readGroup query))).result c.board with
    ⟨failure' | partials, t⟩ <;> rw [hg] at hr hends
  · exact Except.error.inj hr ▸ hends
  · exact absurd hr ok_ne_error

/-- A search on sound columns comes to it as well. -/
theorem Comes.searchGroups {view : L → List String} (hmodest : c.Modest view) {catalog : Catalog}
    (w : Workshop) (hlists : ∀ group ∈ groups, ∀ placed ∈ group, catalog.Lists placed.segment)
    {columns : KeyColumns} (hcolumns : columns.Sound catalog) (schedule : Schedule) :
    Meets good bad ((c.searchGroups w schedule core groups query).result (columns, c.board)).1 := by
  have hread : ∃ schedule',
      ((c.searchGroups w schedule core groups query).result (columns, c.board)).1 =
        ((c.readScheduled schedule' core groups query).result c.board).1 :=
    hmodest.exists_readScheduled w query hlists (s := (columns, c.board)) hcolumns schedule
  obtain ⟨schedule', hsame⟩ := hread
  rw [hsame]
  exact h schedule'

end Comes

end Collector

end FederatedSearch
