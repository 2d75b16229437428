import FederatedSearch.Proofs.Collector.Modest
import FederatedSearch.Proofs.Index.Visits
import FederatedSearch.Proofs.Process.Failures

/-!
# What a search can fail with

A search can fail because a pattern of its query is bad, because a segment cannot be read, because
an update of a shared record was refused too often and because a key is too large. That is all there
is: whatever the collector does comes down to one of these, and a search with several collectors fails
with what one of them fails with. The groups add nothing to that, whatever schedule they are on: a search
fails with what some group failed with.

The caches do not matter here. They spare some of the work and none of the failures is about them.

## Main definitions

* `Failure.Underway` — the failures that can come up in a call which has its snapshots
* `Collector.FailsOnly` — all failures of a collector have a property

## Main results

* `Collector.FailsOnly.both`, `Collector.FailsOnly.many`, `Collector.FailsOnly.blended`
* `Caches.failsOnly_search`, `Caches.failsOnly_collectKeys` — searches through caches
-/

namespace FederatedSearch

/-- What can still go wrong when the snapshots of all cores have been taken. -/
inductive Failure.Underway : Failure → Prop where
  | missingRelation (source target : String) : Underway (.missingRelation source target)
  | invalidRequest (fault : RequestFault) : Underway (.invalidRequest fault)
  | segment (core : String) (fault : SegmentFault) : Underway (.segment core fault)
  | retryBudgetExceeded (budget : Nat) : Underway (.retryBudgetExceeded budget)
  | keyTooLarge (fault : KeyFault) : Underway (.keyTooLarge fault)

open Failure (Underway)

/-! ### Segments -/

theorem Compiles.failsOnly [PatternEngines] {α : Type} {core : String} {texts : List PatternText}
    {r : Except Failure α} (h : Compiles core texts r) : FailsOnly Underway r := by
  cases hfault : texts.findSome? (·.fault? core) with
  | some fault => exact h.error hfault ▸ failsOnly_error (.invalidRequest fault)
  | none =>
    obtain ⟨x, rfl⟩ := h.ok hfault
    exact failsOnly_ok x

namespace Segment

variable (s : Segment) (field : String) (doc : Nat)

theorem failsOnly_search [PatternEngines] (query : Query) (scored : Bool) :
    FailsOnly Underway (s.search query scored) := by
  cases s with
  | indexed s => exact (s.compiles_matching query).failsOnly.bind fun _ => failsOnly_ok _
  | damaged s => exact failsOnly_error (.segment _ _)

theorem failsOnly_value : FailsOnly Underway (s.value field doc) := by
  cases s with
  | indexed s => exact failsOnly_ok _
  | damaged s => exact failsOnly_error (.segment _ _)

theorem failsOnly_joinKey : FailsOnly Underway (s.joinKey field doc) := by
  cases s with
  | indexed s => exact failsOnly_ok _
  | damaged s => exact failsOnly_error (.segment _ _)

theorem failsOnly_joinKeys : FailsOnly Underway (s.joinKeys field) := by
  rw [joinKeys, ← List.toArray_range, List.mapM_toArray]
  exact (FailsOnly.mapM fun doc _ => s.failsOnly_joinKey field doc).map _

theorem failsOnly_stored : FailsOnly Underway (s.stored doc) := by
  cases s with
  | indexed s =>
    rw [stored]
    split
    · exact failsOnly_ok _
    · exact failsOnly_error (.segment _ _)
  | damaged s => exact failsOnly_error (.segment _ _)

end Segment

theorem Snapshot.failsOnly_stored (s : Snapshot) (doc : Nat) : FailsOnly Underway (s.stored doc) := by
  rw [stored]
  split
  · exact Segment.failsOnly_stored _ _
  · exact failsOnly_error (.segment _ _)

/-! ### Keys, tables and clauses -/

theorem KeyBits.failsOnly_insert? (s : KeyBits) (key : JoinKey) :
    FailsOnly Underway (s.insert? key) := by
  rw [insert?]
  split
  · exact failsOnly_ok _
  · split
    · exact failsOnly_error (.keyTooLarge _)
    · exact failsOnly_ok _

theorem KeysSoFar.failsOnly_add? (k : KeysSoFar) (key : JoinKey) :
    FailsOnly Underway (k.add? key) := by
  rw [add?]
  split
  · exact (k.current.failsOnly_insert? key).bind fun _ => failsOnly_ok _
  · exact failsOnly_ok k

theorem RankTable.failsOnly_record? (t : RankTable) (key : JoinKey) (score : Binary32) :
    FailsOnly Underway (RankTable.record? t key score) := by
  rw [record?]
  split
  · exact failsOnly_error (.keyTooLarge _)
  · exact failsOnly_ok _

theorem DocTable.failsOnly_record? (t : DocTable) (key : JoinKey) (doc : Nat) :
    FailsOnly Underway (DocTable.record? t key doc) := by
  rw [record?]
  split
  · exact failsOnly_error (.keyTooLarge _)
  · exact failsOnly_ok _

theorem Raising.failsOnly_giveUp {r : Raising} {failure : Failure} (h : r.next = .giveUp failure) :
    Underway failure := by
  rw [next] at h
  split at h
  · exact nomatch h
  · split at h
    · rw [← Step.giveUp.inj h]
      exact .retryBudgetExceeded _
    · exact nomatch h

theorem BestPerKey.failsOnly_attempts (key : JoinKey) (left : Nat) (r : Raising) :
    (attempts key left r).FailsOnly Underway := by
  induction left generalizing r with
  | zero =>
    rw [attempts]
    split
    · exact Process.failsOnly_pure ()
    · exact Process.failsOnly_ofExcept (failsOnly_error (Raising.failsOnly_giveUp ‹_›))
    · exact Process.failsOnly_ofExcept (failsOnly_error (.retryBudgetExceeded _))
  | succ left ih =>
    rw [attempts]
    split
    · exact Process.failsOnly_pure ()
    · exact Process.failsOnly_ofExcept (failsOnly_error (Raising.failsOnly_giveUp ‹_›))
    · refine (Process.failsOnly_weakUpdate _).bind fun found => ?_
      cases found with
      | none => exact Process.failsOnly_pure ()
      | some found => exact ih (r.refused found)

theorem BestPerKey.failsOnly_contend (key : JoinKey) (hit : Hit) :
    (contend key hit).FailsOnly Underway :=
  (Process.failsOnly_update _).bind fun _ => (Process.failsOnly_update _).bind fun r =>
    failsOnly_attempts key r.left r

namespace SortClause

theorem failsOnly_own? (f : SortField) : FailsOnly Underway (own? f) := by
  rw [own?]
  split
  · exact failsOnly_error (.invalidRequest _)
  · exact failsOnly_ok _

theorem failsOnly_related? (f : SortField) (keyField : String) (table : DocTable) (other : Snapshot) :
    FailsOnly Underway (related? f keyField table other) := by
  rw [related?]
  split
  · exact failsOnly_error (.invalidRequest _)
  · exact failsOnly_ok _

theorem failsOnly_read (r : SortReading) (field : String) (segment : Segment) (hit : Hit) :
    FailsOnly Underway (r.read field segment hit) := by
  cases r with
  | score => exact failsOnly_ok _
  | text | int | double => exact (segment.failsOnly_value field hit.doc).map _

theorem failsOnly_key (clause : SortClause) (bound : Bound) (placed : Placed) (hit : Hit) :
    FailsOnly Underway (clause.key bound placed hit) := by
  rw [key]
  split
  · exact failsOnly_read _ _ _ _
  · simp only
    split
    · exact failsOnly_ok _
    · split
      · exact failsOnly_read _ _ _ _
      · exact failsOnly_ok _

end SortClause

theorem failsOnly_sortKeys (clauses : List SortClause) (bound : Bound) (hit : Hit) :
    FailsOnly Underway (sortKeys clauses bound hit) := by
  rw [sortKeys]
  split
  · exact FailsOnly.mapM fun clause _ => clause.failsOnly_key bound _ hit
  · exact failsOnly_ok []

theorem failsOnly_tallyDocument (segment : Segment) (doc : Nat) (requests : List FacetRequest)
    (tallies : List Tally) : FailsOnly Underway (tallyDocument segment doc requests tallies) := by
  induction requests, tallies using tallyDocument.induct with
  | case1 r rs t ts ih =>
    rw [tallyDocument]
    exact (segment.failsOnly_value r.field doc).bind fun _ => ih.bind fun _ => failsOnly_ok _
  | case2 requests tallies hshort =>
    rw [tallyDocument]
    · exact failsOnly_ok _
    · exact hshort

/-! ### Collectors -/

/-- All failures of the collector have the property, wherever they come up. -/
structure Collector.FailsOnly {B L P F : Type} (p : Failure → Prop) (c : Collector B L P F) :
    Prop where
  start : c.start.FailsOnly p
  bind : ∀ placed l, (c.bind placed l).FailsOnly p
  collect : ∀ bound hit l, (c.collect bound hit l).FailsOnly p
  endSegment : ∀ bound l, (c.endSegment bound l).FailsOnly p
  finish : ∀ l, (c.finish l).FailsOnly p
  merge : ∀ s partials, FederatedSearch.FailsOnly p (c.merge s partials)

namespace Collector

open Process (failsOnly_pure failsOnly_ofExcept failsOnly_update)

section Compose

variable {B C L M P Q F G : Type} {p : Failure → Prop}

theorem FailsOnly.blended {inner : Collector B L P F} (h : inner.FailsOnly p)
    (ranks : List RankSource) (ratio : Binary32) : (inner.blended ranks ratio).FailsOnly p where
  start := h.start
  bind placed l := (h.bind placed l).bind fun _ => failsOnly_pure _
  collect bound hit l := by
    simp only [Collector.blended]
    split
    · exact h.collect bound hit l
    · exact h.collect bound _ l
  endSegment := h.endSegment
  finish := h.finish
  merge := h.merge

/-- A step that is only taken if the member is on. -/
theorem failsOnly_ifOn {σ : Type} {on : Bool} {step : Process σ L} (h : step.FailsOnly p) (l : L) :
    (if on then step else pure l).FailsOnly p := by
  cases on with
  | true => exact h
  | false => exact failsOnly_pure l

theorem FailsOnly.both {a : Collector B L P F} {b : Collector C M Q G} (ha : a.FailsOnly p)
    (hb : b.FailsOnly p) : (a.both b).FailsOnly p where
  start := (ha.start.focus _).bind fun _ => (hb.start.focus _).bind fun _ => failsOnly_pure _
  bind placed l := ((ha.bind placed l.first).focus _).bind fun _ =>
    ((hb.bind placed l.second).focus _).bind fun _ => failsOnly_pure _
  collect bound hit l := by
    rw [both_collect]
    exact (failsOnly_ifOn ((ha.collect bound hit l.first).focus _) _).bind fun _ =>
      (failsOnly_ifOn ((hb.collect bound hit l.second).focus _) _).bind fun _ => failsOnly_pure _
  endSegment bound l := by
    rw [both_endSegment]
    exact (failsOnly_ifOn ((ha.endSegment bound l.first).focus _) _).bind fun _ =>
      (failsOnly_ifOn ((hb.endSegment bound l.second).focus _) _).bind fun _ => failsOnly_pure _
  finish l := ((ha.finish l.first).focus _).bind fun _ =>
    ((hb.finish l.second).focus _).bind fun _ => failsOnly_pure _
  merge s partials := (ha.merge s.1 _).bind fun _ => (hb.merge s.2 _).bind fun _ => failsOnly_ok _

section Many

variable {cs : List (Collector B L P F)}

theorem failsOnly_startEach (h : ∀ c ∈ cs, c.FailsOnly p) : (startEach cs).FailsOnly p := by
  induction cs with
  | nil => exact failsOnly_pure _
  | cons c cs ih =>
    obtain ⟨hc, hcs⟩ := List.forall_mem_cons.mp h
    exact (hc.start.focus _).bind fun _ => ((ih hcs).focus _).bind fun _ => failsOnly_pure _

theorem failsOnly_bindEach (h : ∀ c ∈ cs, c.FailsOnly p) (placed : Placed) (ms : List (Member L)) :
    (bindEach placed cs ms).FailsOnly p := by
  induction cs generalizing ms with
  | nil => exact failsOnly_pure _
  | cons c cs ih =>
    cases ms with
    | nil => exact failsOnly_pure _
    | cons m ms =>
      obtain ⟨hc, hcs⟩ := List.forall_mem_cons.mp h
      exact ((hc.bind placed m.state).focus _).bind fun _ => ((ih hcs ms).focus _).bind fun _ =>
        failsOnly_pure _

theorem failsOnly_eachOn {step : Collector B L P F → L → Process B L}
    (h : ∀ c ∈ cs, ∀ l, (step c l).FailsOnly p) (ms : List (Member L)) :
    (eachOn step cs ms).FailsOnly p := by
  induction cs generalizing ms with
  | nil => exact eachOn_nil step ms ▸ failsOnly_pure []
  | cons c cs ih =>
    cases ms with
    | nil => exact failsOnly_pure []
    | cons m ms =>
      obtain ⟨hc, hcs⟩ := List.forall_mem_cons.mp h
      rw [eachOn_cons]
      exact (failsOnly_ifOn ((hc m.state).focus _) _).bind fun _ => ((ih hcs ms).focus _).bind fun _ =>
        failsOnly_pure _

theorem failsOnly_finishEach (h : ∀ c ∈ cs, c.FailsOnly p) (ms : List (Member L)) :
    (finishEach cs ms).FailsOnly p := by
  induction cs generalizing ms with
  | nil => exact failsOnly_pure _
  | cons c cs ih =>
    cases ms with
    | nil => exact failsOnly_pure _
    | cons m ms =>
      obtain ⟨hc, hcs⟩ := List.forall_mem_cons.mp h
      exact ((hc.finish m.state).focus _).bind fun _ => ((ih hcs ms).focus _).bind fun _ =>
        failsOnly_pure _

theorem failsOnly_mergeEach (h : ∀ c ∈ cs, c.FailsOnly p) (boards : List B) (partials : List (List P)) :
    FederatedSearch.FailsOnly p (mergeEach cs boards partials) := by
  induction cs generalizing boards partials with
  | nil => exact failsOnly_ok []
  | cons c cs ih =>
    obtain ⟨hc, hcs⟩ := List.forall_mem_cons.mp h
    exact (hc.merge _ _).bind fun _ => (ih hcs _ _).bind fun _ => failsOnly_ok _

theorem FailsOnly.many (h : ∀ c ∈ cs, c.FailsOnly p) : (many cs).FailsOnly p where
  start := failsOnly_startEach h
  bind placed ms := failsOnly_bindEach h placed ms
  collect bound hit ms := failsOnly_eachOn (fun c hc l => (h c hc).collect bound hit l) ms
  endSegment bound ms := failsOnly_eachOn (fun c hc l => (h c hc).endSegment bound l) ms
  finish ms := failsOnly_finishEach h ms
  merge boards partials := failsOnly_mergeEach h boards partials

end Many

end Compose

/-! ### The collectors of the library -/

theorem failsOnly_counting : counting.FailsOnly Underway where
  start := failsOnly_pure _
  bind _ _ := failsOnly_pure _
  collect _ _ _ := failsOnly_pure _
  endSegment _ _ := failsOnly_pure _
  finish _ := failsOnly_pure _
  merge _ _ := failsOnly_ok _

theorem failsOnly_mostRelevant (limit : Nat) : (mostRelevant limit).FailsOnly Underway where
  start := failsOnly_pure _
  bind _ _ := failsOnly_pure _
  collect _ _ _ := failsOnly_pure _
  endSegment _ _ := failsOnly_pure _
  finish _ := failsOnly_pure _
  merge _ _ := failsOnly_ok _

theorem failsOnly_firstInOrder (clauses : List SortClause) (limit : Nat) :
    (firstInOrder clauses limit).FailsOnly Underway where
  start := failsOnly_pure _
  bind _ _ := failsOnly_pure _
  collect bound hit _ := (failsOnly_ofExcept (failsOnly_sortKeys clauses bound hit)).bind fun _ =>
    failsOnly_pure _
  endSegment _ _ := failsOnly_pure _
  finish _ := failsOnly_pure _
  merge _ _ := failsOnly_ok _

theorem failsOnly_collapsing (field : String) (limit budget : Nat) :
    (collapsing field limit budget).FailsOnly Underway where
  start := failsOnly_pure _
  bind _ _ := failsOnly_pure _
  collect bound hit l := by
    simp only [collapsing]
    split
    · exact failsOnly_pure _
    · exact (BestPerKey.failsOnly_contend _ _).bind fun _ => failsOnly_pure l
  endSegment _ _ := failsOnly_pure _
  finish _ := failsOnly_pure _
  merge _ _ := failsOnly_ok _

theorem failsOnly_faceting (requests : List FacetRequest) : (faceting requests).FailsOnly Underway where
  start := failsOnly_pure _
  bind _ _ := failsOnly_pure _
  collect bound hit tallies := by
    simp only [faceting]
    split
    · exact failsOnly_ofExcept (failsOnly_tallyDocument _ _ _ _)
    · exact failsOnly_pure tallies
  endSegment _ _ := failsOnly_pure _
  finish _ := failsOnly_pure _
  merge _ _ := failsOnly_ok _

theorem failsOnly_rankScores (field : String) : (rankScores field).FailsOnly Underway where
  start := failsOnly_pure _
  bind _ _ := failsOnly_pure _
  collect bound hit t := by
    simp only [rankScores]
    split
    · exact failsOnly_pure t
    · exact failsOnly_ofExcept (RankTable.failsOnly_record? _ _ _)
  endSegment _ _ := failsOnly_pure _
  finish _ := failsOnly_pure _
  merge _ _ := failsOnly_ok _

theorem failsOnly_firstDocs (field : String) : (firstDocs field).FailsOnly Underway where
  start := failsOnly_pure _
  bind _ _ := failsOnly_pure _
  collect bound hit t := by
    simp only [firstDocs]
    split
    · exact failsOnly_pure t
    · exact failsOnly_ofExcept (DocTable.failsOnly_record? _ _ _)
  endSegment _ _ := failsOnly_pure _
  finish _ := failsOnly_pure _
  merge _ _ := failsOnly_ok _

theorem failsOnly_joinKeys (field : String) : (joinKeys field).FailsOnly Underway where
  start := failsOnly_pure _
  bind _ _ := failsOnly_pure _
  collect _ _ k := failsOnly_ofExcept (k.failsOnly_add? _)
  endSegment _ _ := failsOnly_pure _
  finish _ := failsOnly_pure _
  merge _ _ := failsOnly_ok _

theorem failsOnly_rememberedJoinKeys (live : Liveness) (field : String) (memory : KeyMemory) :
    (rememberedJoinKeys live field memory).FailsOnly Underway where
  start := failsOnly_pure _
  bind placed k := by
    refine Process.FailsOnly.bind (failsOnly_update _) fun remembered => ?_
    cases remembered with
    | some keys => exact failsOnly_pure _
    | none => exact failsOnly_pure _
  collect _ _ k := failsOnly_ofExcept (k.failsOnly_add? _)
  endSegment bound k := by
    simp only [rememberedJoinKeys]
    split
    · exact Process.FailsOnly.bind (failsOnly_update _) fun _ => failsOnly_pure _
    · exact failsOnly_pure _
  finish _ := failsOnly_pure _
  merge _ _ := failsOnly_ok _

/-! ### Searches -/

variable {B L P F : Type} {c : Collector B L P F} (h : c.FailsOnly Underway) (w : Workshop)
include h

omit h in
theorem failsOnly_load (live : Liveness) (segment : Segment) (field : String) :
    (KeyColumns.load live segment field).FailsOnly Underway := by
  refine Process.FailsOnly.bind (failsOnly_update _) fun column => ?_
  cases column with
  | some column => exact failsOnly_pure _
  | none =>
    exact (failsOnly_ofExcept (segment.failsOnly_joinKeys field)).bind fun _ => failsOnly_update _

omit h in
theorem failsOnly_loadColumns (live : Liveness) (segment : Segment) (fields : List String) :
    (loadColumns live segment fields).FailsOnly Underway := by
  induction fields with
  | nil => exact failsOnly_pure []
  | cons field fields ih =>
    exact (failsOnly_load live segment field).bind fun _ => ih.bind fun _ => failsOnly_pure _

variable [PatternEngines]

theorem FailsOnly.runSegment (query : Query) (l : L) (placed : Placed) :
    (c.runSegment w query l placed).FailsOnly Underway := by
  have hopen : (c.openSegment w placed l).FailsOnly Underway :=
    ((h.bind placed l).focus _).bind fun binding =>
      ((failsOnly_loadColumns w.live placed.segment binding.fields).focus _).bind fun _ =>
        failsOnly_pure _
  refine hopen.bind fun ⟨visit, bound, l⟩ => ?_
  cases visit with
  | skip => exact failsOnly_pure l
  | docs =>
    refine (failsOnly_ofExcept (placed.segment.failsOnly_search query _)).bind fun hits => ?_
    exact (Process.FailsOnly.foldlM (fun hit _ l => (h.collect bound hit l).focus _) l).bind
      fun l => (h.endSegment bound l).focus _

theorem FailsOnly.runGroup (query : Query) (group : List Placed) :
    (c.runGroup w query group).FailsOnly Underway :=
  (h.start.focus _).bind fun l =>
    (Process.FailsOnly.foldlM (fun placed _ l => h.runSegment w query l placed) l).bind
      fun l => (h.finish l).focus _

theorem FailsOnly.searchOn (schedule : Schedule) (snapshot : Snapshot) (query : Query) :
    (c.searchOn w schedule snapshot query).FailsOnly Underway := by
  intro s
  have hjobs : ∀ group ∈ groupsOf w snapshot,
      (c.runGroup w query group).EndsOnly (fun _ => True) Underway := fun group _ =>
    h.runGroup w query group
  have hgroups := Gathering.endsOnly_gather hjobs snapshot.core schedule s
  rw [Collector.searchOn, result_searchGroups]
  rcases hr : (Gathering.gather snapshot.core schedule
    ((groupsOf w snapshot).map (c.runGroup w query))).result s with ⟨failure | partials, t⟩
  · rw [hr] at hgroups
    exact failsOnly_error hgroups
  · exact h.merge t.2 partials

end Collector

variable [PatternEngines]

namespace Caches

variable (w : Workshop) (schedule : Schedule) (snapshot : Snapshot) (query : Query)

/-- **A search** fails with what its collector fails with, or because of a pattern or a segment. -/
theorem failsOnly_search {B L P F : Type} {c : Collector B L P F} (h : c.FailsOnly Underway) :
    (search w schedule snapshot query c).FailsOnly Underway :=
  fun caches => h.searchOn w schedule snapshot query (caches.columns, c.board)

/-- Whatever is remembered, collecting keys fails with nothing else. -/
theorem failsOnly_collectKeys (field : String) :
    (collectKeys w schedule snapshot query field).FailsOnly Underway :=
  fun _ => (Collector.failsOnly_rememberedJoinKeys _ field _).searchOn w schedule snapshot query _

end Caches

end FederatedSearch
