import FederatedSearch.Proofs.Collector.Compose
import FederatedSearch.Proofs.Collector.JoinKeys
import FederatedSearch.Proofs.Search.Offers
import FederatedSearch.Engine.Call

/-!
# The collectors of the library

Every collector of the library is modest, and all of them but those for join keys are plain. A
collector that sees blended scores, two collectors and many collectors at once are modest if their
parts are.

## Main results

* `Collector.modest_blended`, `Collector.modest_both`, `Collector.modest_many`
* `Collector.Plain.blended`, `Collector.collect_blended` — blending changes the matches that are offered
-/

namespace FederatedSearch

namespace Bound

variable {bound other : Bound}

theorem key_eq_of_columns {field : String} (h : bound.columns field = other.columns field)
    (doc : Nat) : bound.key field doc = other.key field doc := by
  rw [key, key, h]

theorem absolute_eq_of_placed (h : bound.placed = other.placed) (doc : Nat) :
    bound.absolute doc = other.absolute doc := by
  rw [absolute, absolute, h]

theorem place_eq_of_placed (h : bound.placed = other.placed) (hit : Hit) :
    bound.place hit = other.place hit := by
  rw [place, place, absolute_eq_of_placed h]

end Bound

namespace Collector

open Process

variable {B C L M P Q F G : Type}

/-! ### Plain collectors -/

section Plain

/-- A plain collector looks at columns and scores at most when it takes in a match. -/
theorem Plain.modest {c : Collector B L P F} {visit : Visit} {fields : List String}
    (h : c.Plain visit fields)
    (hcollects : ∀ {bound other : Bound}, bound.placed = other.placed →
      (∀ field ∈ fields, bound.columns field = other.columns field) →
        ∀ hit l, c.collect bound hit l = c.collect other hit l)
    (hunscored : c.needsScores = false → ∀ bound hit score l,
      c.collect bound { hit with score := score } l = c.collect bound hit l) :
    c.Modest fun _ => fields where
  asks placed l := by
    rw [h.bind_eq]
    exact endsOnly_pure fun _ => List.Subset.refl _
  keeps _ _ _ := (endsOnly_true _).mono (fun _ _ => List.Subset.refl _) fun _ h => h
  collects hplaced hcolumns hit := hcollects hplaced hcolumns hit _
  ends _ _ := by rw [h.endSegment_eq, h.endSegment_eq]
  unscored := hunscored

theorem plain_counting : counting.Plain .docs [] := ⟨fun _ _ => rfl, fun _ _ => rfl⟩

theorem modest_counting : counting.Modest fun _ => [] :=
  plain_counting.modest (fun _ _ _ _ => rfl) fun _ _ _ _ _ => rfl

theorem plain_mostRelevant (limit : Nat) : (mostRelevant limit).Plain .docs [] :=
  ⟨fun _ _ => rfl, fun _ _ => rfl⟩

theorem modest_mostRelevant (limit : Nat) : (mostRelevant limit).Modest fun _ => [] := by
  refine (plain_mostRelevant limit).modest (fun hplaced _ hit l => ?_) (absurd · Bool.true_eq_false.mp)
  simp only [mostRelevant, Bound.place_eq_of_placed hplaced]

theorem sortClause_key_congr {bound other : Bound} {clause : SortClause}
    (h : ∀ field ∈ clause.keyFields, bound.columns field = other.columns field) (placed : Placed)
    (hit : Hit) : clause.key bound placed hit = clause.key other placed hit := by
  rw [SortClause.keyFields] at h
  rw [SortClause.key, SortClause.key]
  cases hsource : clause.source with
  | own => rfl
  | related keyField table snapshot =>
    rw [hsource] at h
    simp only [Bound.key_eq_of_columns (h keyField (List.mem_singleton_self _))]

theorem plain_firstInOrder (clauses : List SortClause) (limit : Nat) :
    (firstInOrder clauses limit).Plain (if limit = 0 then .skip else .docs)
      (clauses.flatMap (·.keyFields)) := ⟨fun _ _ => rfl, fun _ _ => rfl⟩

theorem modest_firstInOrder (clauses : List SortClause) (limit : Nat) :
    (firstInOrder clauses limit).Modest fun _ => clauses.flatMap (·.keyFields) := by
  refine (plain_firstInOrder clauses limit).modest (fun {bound other} hplaced hcolumns hit l => ?_)
    (absurd · Bool.true_eq_false.mp)
  have hkeys : sortKeys clauses bound hit = sortKeys clauses other hit := by
    rw [sortKeys, sortKeys, hplaced]
    cases other.placed with
    | none => rfl
    | some placed =>
      refine mapM_congr fun clause hclause => sortClause_key_congr (fun field hfield => ?_) placed hit
      exact hcolumns field (List.mem_flatMap.mpr ⟨clause, hclause, hfield⟩)
  simp only [firstInOrder, Bound.place_eq_of_placed hplaced, hkeys]

/-- The sort keys of a match are read before it is buffered. -/
theorem collect_firstInOrder (clauses : List SortClause) (limit : Nat) (e : Offer)
    (buffer : List SortedHit) : (firstInOrder clauses limit).collect (.of e.1) e.2 buffer =
      .ofExcept (sortKeys clauses (.of e.1) e.2) >>= fun keys =>
        pure (bufferSorted clauses limit buffer ⟨e.hit, keys⟩) := rfl

theorem plain_collapsing (field : String) (limit budget : Nat) :
    (collapsing field limit budget).Plain .docs [field] := ⟨fun _ _ => rfl, fun _ _ => rfl⟩

theorem modest_collapsing (field : String) (limit budget : Nat) :
    (collapsing field limit budget).Modest fun _ => [field] := by
  refine (plain_collapsing field limit budget).modest (fun hplaced hcolumns hit l => ?_)
    (absurd · Bool.true_eq_false.mp)
  simp only [collapsing, Bound.place_eq_of_placed hplaced,
    Bound.key_eq_of_columns (hcolumns field (List.mem_singleton_self _))]

/-- A match without a key is for its group, and all others are for the records. -/
theorem collect_collapsing (field : String) (limit budget : Nat) (e : Offer) (l : Unkeyed) :
    (collapsing field limit budget).collect (.of e.1) e.2 l =
      if e.key field = noKey then pure { best := l.best.insert e.hit, count := l.count + 1 }
      else BestPerKey.contend (e.key field) e.hit >>= fun _ => pure l := rfl

theorem plain_faceting (requests : List FacetRequest) :
    (faceting requests).Plain (if requests.isEmpty then .skip else .docs) [] :=
  ⟨fun _ _ => rfl, fun _ _ => rfl⟩

theorem modest_faceting (requests : List FacetRequest) :
    (faceting requests).Modest fun _ => [] := by
  refine (plain_faceting requests).modest (fun hplaced _ hit l => ?_) fun _ _ _ _ _ => rfl
  simp only [faceting, hplaced]

theorem plain_rankScores (field : String) : (rankScores field).Plain .docs [field] :=
  ⟨fun _ _ => rfl, fun _ _ => rfl⟩

theorem modest_rankScores (field : String) : (rankScores field).Modest fun _ => [field] := by
  refine (plain_rankScores field).modest (fun _ hcolumns hit l => ?_) (absurd · Bool.true_eq_false.mp)
  simp only [rankScores, Bound.key_eq_of_columns (hcolumns field (List.mem_singleton_self _))]

theorem plain_firstDocs (field : String) : (firstDocs field).Plain .docs [field] :=
  ⟨fun _ _ => rfl, fun _ _ => rfl⟩

theorem modest_firstDocs (field : String) : (firstDocs field).Modest fun _ => [field] := by
  refine (plain_firstDocs field).modest (fun hplaced hcolumns hit l => ?_) fun _ _ _ _ _ => rfl
  simp only [firstDocs, Bound.absolute_eq_of_placed hplaced,
    Bound.key_eq_of_columns (hcolumns field (List.mem_singleton_self _))]

end Plain

/-! ### Blended scores -/

section Blended

variable (ranks : List RankSource) (ratio : Binary32)

/-- The match with its blended score. -/
def blendOffer (e : Offer) : Offer :=
  if ranks.isEmpty then e
  else (e.1, { e.2 with
    score := blend e.2.score ratio (ranks.map fun r => RankTable.score r.table (e.key r.field)) })

theorem doc_blendOffer (e : Offer) : (blendOffer ranks ratio e).2.doc = e.2.doc := by
  rw [blendOffer]
  split <;> rfl

theorem number_blendOffer (e : Offer) : (blendOffer ranks ratio e).number = e.number := by
  rw [blendOffer]
  split <;> rfl

theorem Numbered.blend {items : List Offer} (h : Numbered items) :
    Numbered (items.map (blendOffer ranks ratio)) := by
  intro x hx y hy hnumber
  obtain ⟨e, he, rfl⟩ := List.mem_map.mp hx
  obtain ⟨e', he', rfl⟩ := List.mem_map.mp hy
  rw [number_blendOffer, number_blendOffer] at hnumber
  rw [h e he e' he' hnumber]

theorem Numbered.nodup_blend {items : List Offer} (h : Numbered items) (hnodup : items.Nodup) :
    (items.map (blendOffer ranks ratio)).Nodup := by
  refine List.Nodup.map_on (fun e he e' he' hsame => h e he e' he' ?_) hnodup
  rw [← number_blendOffer ranks ratio e, hsame, number_blendOffer]

variable {inner : Collector B L P F}

theorem Plain.blended {visit : Visit} {fields : List String} (h : inner.Plain visit fields) :
    ∃ more, (inner.blended ranks ratio).Plain visit more := by
  cases visit with
  | skip =>
    refine ⟨fields, fun placed l => ?_, h.endSegment_eq⟩
    simp only [Collector.blended, h.bind_eq, pure_bind]
  | docs =>
    refine ⟨fields ++ ranks.map (·.field), fun placed l => ?_, h.endSegment_eq⟩
    simp only [Collector.blended, h.bind_eq, pure_bind]

/-- It takes in the match with its blended score. -/
theorem collect_blended (e : Offer) (l : L) : (inner.blended ranks ratio).collect (.of e.1) e.2 l =
    inner.collect (.of (blendOffer ranks ratio e).1) (blendOffer ranks ratio e).2 l := by
  rw [blendOffer]
  simp only [Collector.blended]
  split <;> rfl

theorem modest_blended {view : L → List String} (h : inner.Modest view) :
    (inner.blended ranks ratio).Modest fun l => view l ++ ranks.map (·.field) where
  asks placed l := by
    refine (h.asks placed l).bind fun b hasks => endsOnly_pure ?_
    cases hvisit : b.visit with
    | skip => exact fun hdocs => absurd (hvisit.symm.trans hdocs) nofun
    | docs =>
      intro _
      exact List.append_subset.mpr
        ⟨List.subset_append_of_subset_left _ (hasks hvisit), List.subset_append_right _ _⟩
  keeps bound hit l := by
    have hsub : ∀ {l l' : L}, view l' ⊆ view l →
        view l' ++ ranks.map (·.field) ⊆ view l ++ ranks.map (·.field) :=
      fun hview => List.append_subset.mpr
        ⟨List.subset_append_of_subset_left _ hview, List.subset_append_right _ _⟩
    simp only [Collector.blended]
    split
    · exact (h.keeps bound hit l).mono (fun _ => hsub) fun _ h => h
    · exact (h.keeps bound _ l).mono (fun _ => hsub) fun _ h => h
  collects {bound other l} hplaced hcolumns hit := by
    obtain ⟨hinner, hranks⟩ := List.forall_mem_append.mp hcolumns
    have hothers : (ranks.map fun r => RankTable.score r.table (bound.key r.field hit.doc)) =
        ranks.map fun r => RankTable.score r.table (other.key r.field hit.doc) := by
      refine List.map_congr_left fun r hr => ?_
      rw [Bound.key_eq_of_columns (hranks r.field (List.mem_map_of_mem hr))]
    simp only [Collector.blended, hothers, h.collects hplaced hinner]
  ends hplaced hcolumns := h.ends hplaced (List.forall_mem_append.mp hcolumns).1
  unscored hscores bound hit score l := by
    simp only [Collector.blended, Bool.or_eq_false_iff, Bool.not_eq_false'] at hscores ⊢
    rw [if_pos hscores.1, if_pos hscores.1, h.unscored hscores.2]

end Blended

/-! ### Several collectors -/

section Several

/-- What a member is going to look at, if it is on. -/
def viewIf (on : Bool) (view : List String) : List String := if on then view else []

theorem viewIf_subset {on : Bool} {view fields : List String} (h : on = true → view ⊆ fields) :
    viewIf on view ⊆ fields := by
  cases on with
  | true => exact h rfl
  | false => exact List.nil_subset _

/-- A step that is only taken if the member is on. -/
theorem endsOnly_ifOn {σ : Type} {on : Bool} {view : L → List String} {step : Process σ L} {l : L}
    (h : step.EndsOnly (fun l' => view l' ⊆ view l) fun _ => True) :
    (if on then step else pure l).EndsOnly (fun l' => viewIf on (view l') ⊆ viewIf on (view l))
      fun _ => True := by
  cases on with
  | true => exact h
  | false => exact endsOnly_pure (List.Subset.refl _)

theorem ifOn_congr {σ : Type} {on : Bool} {view : List String} {columns columns' : String → KeyColumn}
    (hcolumns : ∀ field ∈ viewIf on view, columns field = columns' field) {step step' : Process σ L}
    (h : (∀ field ∈ view, columns field = columns' field) → step = step') (l : L) :
    (if on then step else pure l) = if on then step' else pure l := by
  cases on with
  | true => exact h hcolumns
  | false => rfl

section Both

variable {a : Collector B L P F} {b : Collector C M Q G} {view : L → List String}
  {view' : M → List String}

/-- What two collectors are going to look at. -/
def pairView (view : L → List String) (view' : M → List String) (z : PairState L M) : List String :=
  viewIf z.firstOn (view z.first) ++ viewIf z.secondOn (view' z.second)

theorem modest_both (ha : a.Modest view) (hb : b.Modest view') :
    (a.both b).Modest (pairView view view') where
  asks placed z := by
    refine ((ha.asks placed z.first).focus .first).bind fun x hx => ?_
    refine ((hb.asks placed z.second).focus .second).bind fun y hy => ?_
    refine endsOnly_pure fun _ => List.append_subset.mpr ⟨viewIf_subset fun hon => ?_,
      viewIf_subset fun hon => ?_⟩
    · exact List.subset_append_of_subset_left _ (hx (of_decide_eq_true hon))
    · exact List.subset_append_of_subset_right _ (hy (of_decide_eq_true hon))
  keeps bound hit z := by
    rw [both_collect]
    refine (endsOnly_ifOn ((ha.keeps bound hit z.first).focus .first)).bind fun x hx => ?_
    refine (endsOnly_ifOn ((hb.keeps bound hit z.second).focus .second)).bind fun y hy => ?_
    exact endsOnly_pure (List.append_subset.mpr
      ⟨List.subset_append_of_subset_left _ hx, List.subset_append_of_subset_right _ hy⟩)
  collects hplaced hcolumns hit := by
    obtain ⟨hfirst, hsecond⟩ := List.forall_mem_append.mp hcolumns
    rw [both_collect, both_collect,
      ifOn_congr hfirst fun h => congrArg (Process.focus .first) (ha.collects hplaced h hit)]
    refine congrArg (_ >>= ·) (funext fun x => ?_)
    rw [ifOn_congr hsecond fun h => congrArg (Process.focus .second) (hb.collects hplaced h hit)]
  ends hplaced hcolumns := by
    obtain ⟨hfirst, hsecond⟩ := List.forall_mem_append.mp hcolumns
    rw [both_endSegment, both_endSegment,
      ifOn_congr hfirst fun h => congrArg (Process.focus .first) (ha.ends hplaced h)]
    refine congrArg (_ >>= ·) (funext fun x => ?_)
    rw [ifOn_congr hsecond fun h => congrArg (Process.focus .second) (hb.ends hplaced h)]
  unscored hscores bound hit score z := by
    obtain ⟨hfirst, hsecond⟩ := Bool.or_eq_false_iff.mp hscores
    rw [both_collect, both_collect, ha.unscored hfirst, hb.unscored hsecond]

end Both

section Many

variable {ι : Type} {make : ι → Collector B L P F} {view : ι → L → List String}

/-- What collectors of a family are going to look at. -/
def manyView (view : ι → L → List String) : List ι → List (Member L) → List String
  | i :: is, m :: ms => viewIf m.isOn (view i m.state) ++ manyView view is ms
  | _, _ => []

theorem endsOnly_bindEach_view (h : ∀ i, (make i).Modest (view i)) (placed : Placed) (is : List ι)
    (ms : List (Member L)) :
    (bindEach placed (is.map make) ms).EndsOnly (fun b => manyView view is b.state ⊆ b.fields)
      fun _ => True := by
  induction is generalizing ms with
  | nil => exact endsOnly_pure (List.nil_subset _)
  | cons i is ih =>
    cases ms with
    | nil => exact endsOnly_pure (List.nil_subset _)
    | cons m ms =>
      refine (((h i).asks placed m.state).focus _).bind fun x hx => ?_
      refine ((ih ms).focus _).bind fun rest hrest => ?_
      refine endsOnly_pure (List.append_subset.mpr ⟨viewIf_subset fun hon => ?_, ?_⟩)
      · exact List.subset_append_of_subset_left _ (hx (of_decide_eq_true hon))
      · exact List.subset_append_of_subset_right _ hrest

theorem endsOnly_eachOn_view {step : Collector B L P F → L → Process B L}
    (h : ∀ i l, (step (make i) l).EndsOnly (fun l' => view i l' ⊆ view i l) fun _ => True)
    (is : List ι) (ms : List (Member L)) :
    (eachOn step (is.map make) ms).EndsOnly (fun ms' => manyView view is ms' ⊆ manyView view is ms)
      fun _ => True := by
  induction is generalizing ms with
  | nil => exact (endsOnly_true _).mono (fun _ _ => List.nil_subset _) fun _ h => h
  | cons i is ih =>
    cases ms with
    | nil => exact endsOnly_pure (List.nil_subset _)
    | cons m ms =>
      rw [List.map_cons, eachOn_cons]
      refine (endsOnly_ifOn ((h i m.state).focus _)).bind fun x hx => ?_
      refine ((ih ms).focus _).bind fun rest hrest => ?_
      exact endsOnly_pure (List.append_subset.mpr
        ⟨List.subset_append_of_subset_left _ hx, List.subset_append_of_subset_right _ hrest⟩)

theorem eachOn_congr {step step' : Collector B L P F → L → Process B L}
    {columns columns' : String → KeyColumn} {is : List ι}
    (h : ∀ i ∈ is, ∀ l, (∀ field ∈ view i l, columns field = columns' field) →
      step (make i) l = step' (make i) l)
    {ms : List (Member L)}
    (hcolumns : ∀ field ∈ manyView view is ms, columns field = columns' field) :
    eachOn step (is.map make) ms = eachOn step' (is.map make) ms := by
  induction is generalizing ms with
  | nil => rw [List.map_nil, eachOn_nil, eachOn_nil]
  | cons i is ih =>
    cases ms with
    | nil => rfl
    | cons m ms =>
      obtain ⟨hi, his⟩ := List.forall_mem_cons.mp h
      obtain ⟨hfirst, hrest⟩ := List.forall_mem_append.mp hcolumns
      rw [List.map_cons, eachOn_cons, eachOn_cons, ih his hrest,
        ifOn_congr hfirst fun h => congrArg (Process.focus _) (hi m.state h)]

theorem modest_many (h : ∀ i, (make i).Modest (view i)) (is : List ι) :
    (many (is.map make)).Modest (manyView view is) where
  asks placed ms := (endsOnly_bindEach_view h placed is ms).mono (fun _ hview _ => hview) fun _ h => h
  keeps bound hit ms := endsOnly_eachOn_view (fun i l => (h i).keeps bound hit l) is ms
  collects hplaced hcolumns hit :=
    eachOn_congr (fun i _ _ hview => (h i).collects hplaced hview hit) hcolumns
  ends hplaced hcolumns := eachOn_congr (fun i _ _ hview => (h i).ends hplaced hview) hcolumns
  unscored hscores bound hit score ms := by
    have hall : ∀ i ∈ is, (make i).needsScores = false := by simpa [many] using hscores
    have hcolumns : ∀ field ∈ manyView view is ms, bound.columns field = bound.columns field :=
      fun _ _ => rfl
    exact eachOn_congr (fun i hi l _ => (h i).unscored (hall i hi) bound hit score l) hcolumns

end Many

end Several

end Collector

end FederatedSearch
