import FederatedSearch.Proofs.Collector.Scheduled

/-!
# Matches that arrive in any order

Groups can take in their matches by turns, one match at a time, and what a group leaves on the board is
there for the next match of any other. `Collector.deliver` has a number of groups take in matches as they
arrive.

What a group has after some matches it still has when others have taken in theirs. So in whatever order the
matches arrive and however they are dealt out to the groups, in the end each group leaves what it should of
its own matches.

## Main definitions

* `Collector.arrive`, `Collector.takeIn`, `Collector.deliver` — take in matches as they arrive
* `arrivedAt` — the matches of one group

## Main results

* `flatten_arrivedAt_perm` — the groups have all matches between them
* `Takes.ensures_arrive`, `Takes.ensures_takeIn` — one match, and all of them
* `Takes.deliver` — all matches, merged
-/

namespace FederatedSearch

/-- The matches that arrive at a group, in order. -/
def arrivedAt (arrivals : List (Nat × Offer)) (i : Nat) : List Offer :=
  (arrivals.filter (·.1 = i)).map (·.2)

theorem arrivedAt_append (arrivals : List (Nat × Offer)) (arrival : Nat × Offer) (i : Nat) :
    arrivedAt (arrivals ++ [arrival]) i =
      if arrival.1 = i then arrivedAt arrivals i ++ [arrival.2] else arrivedAt arrivals i := by
  rw [arrivedAt, List.filter_append, List.map_append, arrivedAt]
  by_cases h : arrival.1 = i <;> simp [h]

/-- The groups below a bound have what arrives below it. -/
theorem flatten_arrivedAt_below (arrivals : List (Nat × Offer)) (count : Nat) :
    ((List.range count).map (arrivedAt arrivals)).flatten.Perm
      ((arrivals.filter fun arrival => decide (arrival.1 < count)).map (·.2)) := by
  induction count with
  | zero => simp
  | succ count ih =>
    have hsplit := (List.filter_append_perm (fun arrival : Nat × Offer => decide (arrival.1 < count))
      (arrivals.filter fun arrival => decide (arrival.1 < count + 1))).map (·.2)
    have hbelow : (arrivals.filter fun arrival => decide (arrival.1 < count + 1)).filter
        (fun arrival => decide (arrival.1 < count)) =
          arrivals.filter fun arrival => decide (arrival.1 < count) := by
      rw [List.filter_filter]
      refine List.filter_congr fun arrival _ => ?_
      simp only [← Bool.decide_and]
      exact decide_eq_decide.mpr (by omega)
    have hlast : (arrivals.filter fun arrival => decide (arrival.1 < count + 1)).filter
        (fun arrival => !decide (arrival.1 < count)) =
          arrivals.filter fun arrival => decide (arrival.1 = count) := by
      rw [List.filter_filter]
      refine List.filter_congr fun arrival _ => ?_
      simp only [← decide_not, ← Bool.decide_and]
      exact decide_eq_decide.mpr (by omega)
    rw [hbelow, hlast, List.map_append] at hsplit
    rw [List.range_succ, List.map_append, List.flatten_append, List.map_singleton,
      List.flatten_singleton]
    exact (ih.append_right _).trans hsplit

/-- **The groups have all matches** between them. -/
theorem flatten_arrivedAt_perm {count : Nat} {arrivals : List (Nat × Offer)}
    (h : ∀ arrival ∈ arrivals, arrival.1 < count) :
    ((List.range count).map (arrivedAt arrivals)).flatten.Perm (arrivals.map (·.2)) := by
  have hall : (arrivals.filter fun arrival => decide (arrival.1 < count)) = arrivals :=
    List.filter_eq_self.mpr fun arrival hmem => decide_eq_true (h arrival hmem)
  have hperm := flatten_arrivedAt_below arrivals count
  rwa [hall] at hperm

namespace Collector

open Process

variable {B L P F : Type} (c : Collector B L P F)

/-- Have a group take in a match. -/
def arrive (locals : List L) (arrival : Nat × Offer) : Process B (List L) :=
  match locals[arrival.1]? with
  | none => return locals
  | some l => do return locals.set arrival.1 (← c.collect (.of arrival.2.1) arrival.2.2 l)

/-- Have a number of groups take in matches as they arrive. -/
def takeIn (count : Nat) (arrivals : List (Nat × Offer)) : Process B (List P) := do
  let locals ← (List.range count).mapM fun _ => c.start
  let locals ← arrivals.foldlM c.arrive locals
  locals.mapM c.finish

/-- Have groups take in matches as they arrive, and merge what the groups have in the end. -/
def deliver (count : Nat) (arrivals : List (Nat × Offer)) : Act B F := do
  let partials ← (c.takeIn count arrivals).alone
  Act.ofExcept (c.merge (← get) partials)

variable {c} {R : Regime B} {items : List Offer} {has : List Offer → L → B → Prop}
  {left : List Offer → P → B → Prop} {bad : Failure → Prop}

/-- What the groups have after some arrivals. -/
structure TakenIn (has : List Offer → L → B → Prop) (count : Nat) (done : List (Nat × Offer))
    (locals : List L) (s : B) : Prop where
  length : locals.length = count
  has : ∀ i l, locals[i]? = some l → has (arrivedAt done i) l s

variable (h : c.Takes R items has left bad) {count : Nat}
include h

/-- **One arrival.** What the other groups have they still have. -/
theorem Takes.ensures_arrive {done : List (Nat × Offer)} {arrival : Nat × Offer}
    (hcount : arrival.1 < count) (hmem : arrival.2 ∈ items) {locals : List L} {s : B}
    (hs : R.may c.board s) (htaken : TakenIn has count done locals s) :
    (c.arrive locals arrival).Ensures R (TakenIn has count (done ++ [arrival])) bad s := by
  have hi : arrival.1 < locals.length := htaken.length ▸ hcount
  rw [arrive, List.getElem?_eq_getElem hi]
  refine (h.collect _ arrival.2 hmem _ s hs
    (htaken.has _ _ (List.getElem?_eq_getElem hi))).bind fun l t hst hl =>
      ensures_pure ⟨?_, fun j l' hj => ?_⟩
  · rw [List.length_set, htaken.length]
  · rw [arrivedAt_append]
    by_cases hij : arrival.1 = j
    · subst hij
      rw [List.getElem?_set_self hi] at hj
      rw [if_pos rfl, ← Option.some.inj hj]
      exact hl
    · rw [List.getElem?_set_ne hij] at hj
      rw [if_neg hij]
      exact h.has_stable _ _ s t hst (htaken.has j l' hj)

variable {arrivals : List (Nat × Offer)} (hcount : ∀ arrival ∈ arrivals, arrival.1 < count)
  (hitems : ∀ arrival ∈ arrivals, arrival.2 ∈ items)
include hcount hitems

/-- **All arrivals.** Each group leaves what it should of its own matches. -/
theorem Takes.ensures_takeIn {s : B} (hs : R.may c.board s) :
    (c.takeIn count arrivals).Ensures R
      (fun partials t => List.Forall₂ (left · · t) ((List.range count).map (arrivedAt arrivals)) partials)
      bad s := by
  have hnumbers : List.Forall₂ (fun _ _ : Nat => True) (List.range count) (List.range count) :=
    List.forall₂_same.mpr fun _ _ => trivial
  have hstarts : ((List.range count).mapM fun _ => c.start).Ensures R
      (fun locals t => List.Forall₂ (fun _ l => has [] l t) (List.range count) locals) bad s :=
    ensures_mapM (fun _ _ _ _ _ _ => trivial) (fun _ => h.has_stable []) hnumbers
      fun _ _ _ t hst _ => h.start t (R.trans hs hst)
  have hstart : ((List.range count).mapM fun _ => c.start).Ensures R (TakenIn has count []) bad s := by
    refine hstarts.mono (fun locals t _ hall => ⟨?_, fun i l hl => ?_⟩) fun _ h => h
    · rw [← hall.length_eq, List.length_range]
    · obtain ⟨_, -, hl⟩ := exists_getElem?_of_forall₂ hall hl
      exact hl
  refine hstart.bind fun locals t hst htaken => ?_
  have hloop : (arrivals.foldlM c.arrive locals).Ensures R (TakenIn has count arrivals) bad t :=
    Process.ensures_foldlM (TakenIn has count)
      (fun done arrival hmem locals u htu htaken => h.ensures_arrive (hcount arrival hmem)
        (hitems arrival hmem) (R.trans hs (R.trans hst htu)) htaken) [] htaken
  refine hloop.bind fun locals u htu htaken => ?_
  refine ensures_mapM h.has_stable h.left_stable (List.forall₂_iff_get.mpr ⟨?_, fun i hi hi' => ?_⟩)
    fun done l _ v huv hl => h.finish done l v (R.trans hs (R.trans hst (R.trans htu huv))) hl
  · rw [List.length_map, List.length_range, htaken.length]
  · have hhas := htaken.has i _ (List.getElem?_eq_getElem hi')
    simpa using hhas

/-- **Deliveries.** What the groups leave is merged. -/
theorem Takes.deliver {good : F → Prop} {worse : Failure → Prop}
    (hbad : ∀ failure, bad failure → worse failure)
    (hmerge : ∀ t partials, R.may c.board t →
      List.Forall₂ (left · · t) ((List.range count).map (arrivedAt arrivals)) partials →
        Meets good worse (c.merge t partials)) :
    Meets good worse ((c.deliver count arrivals).result c.board).1 := by
  obtain ⟨hmay, hends⟩ := (h.ensures_takeIn hcount hitems (R.refl _)).ends
  rw [Collector.deliver, Act.result_bind]
  rcases hr : (c.takeIn count arrivals).alone.result c.board with ⟨failure | partials, t⟩ <;>
    rw [hr] at hmay hends
  · exact hbad failure hends
  · exact hmerge t partials hmay hends

end Collector

end FederatedSearch
