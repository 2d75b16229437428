import FederatedSearch.Proofs.Collector.Tables
import FederatedSearch.Proofs.Engine.SameTables

/-!
# The number of groups

How many groups a search may have is a matter of speed, and so is how their steps are interleaved. The
page, the counts and the keys of a response do not depend on it, with one exception: a table of related
documents has one value for each key, and if segments of the related core have different values for a key
then it depends on the groups which of them it is. If all tables of a call are settled then nothing of the
response depends on the number of groups. Nor does it depend on that number whether there is a response at
all, unless hits are collapsed: groups that contend for a record may use up the budget of an update, and a
group on its own does not.

## Main definitions

* `Call.Settled` — no two segments have different scores or sort keys for a join key

## Main results

* `Call.Settled.sameTables` — the tables of a call look the same in another workshop
* `Call.Grounded.mirrors_respond` — responses of both
* `Session.answer_agrees` — whatever the number of groups
-/

namespace FederatedSearch

namespace Call

open Collector

variable [PatternEngines]

/-- The tables of the call look the same, whichever segment comes first: the first matches with a join
key in any two segments have the same score, where a rank query asks for it, and the same sort key,
where a sort field does. -/
structure Settled (c : Call) : Prop where
  ranks : ∀ core query, (core, query) ∈ c.request.rankQueries.entries → ∀ field snapshot,
    c.request.keyField core c.target = .ok field → c.snapshot core = .ok snapshot →
      Collector.Settled (fun hit => ScoreCode.ofScore hit.score) field query snapshot.segments
  sort : ∀ f ∈ c.request.sort, ∀ core, f.core = some core → core ≠ c.target → ∀ field snapshot,
    c.request.keyField core c.target = .ok field → c.snapshot core = .ok snapshot →
      Collector.Settled (fun hit => f.readAt snapshot hit.doc) field (c.request.core core).fullQuery
        snapshot.segments

variable {c : Call}

/-! ### Tables -/

/-- What a search for a table comes to, in whatever groups. -/
theorem Grounded.meets_outcome {catalog : Catalog} (h : c.Grounded catalog) {core : String}
    {snapshot : Snapshot} (hsnapshot : c.snapshot core = .ok snapshot) {α : Type}
    {collector : Collector Unit (KeyTable α) (KeyTable α) (KeyTable α)} {field : String} {value : Hit → α}
    {greatest : JoinKey} {refuse : JoinKey → Failure}
    (htabulates : Tabulates collector field value greatest refuse)
    (hmodest : collector.Modest fun _ => [field]) (w : Workshop) (query : Query) :
    Meets
      (fun t => CanSearch query (groupsOf w snapshot).flatten ∧
        Admits field greatest (offers query (groupsOf w snapshot).flatten) ∧
        t.Records (recorded value field (offers query (groupsOf w snapshot).flatten)))
      (fun _ => ¬ Admits field greatest (offers query (groupsOf w snapshot).flatten) ∨
        ¬ CanSearch query (groupsOf w snapshot).flatten)
      (collector.outcome w snapshot query) :=
  (htabulates.comes snapshot.core (groupsOf w snapshot) query).outcome hmodest
    (h.lists.snapshot hsnapshot)

/-- **Tables that are settled** look the same in all groups. -/
theorem Settled.sameTables (hsettled : c.Settled) {catalog : Catalog} (h : c.Grounded catalog)
    (w : Workshop) : c.SameTables w := by
  refine ⟨fun core query hmem field snapshot hfield hsnapshot => ?_,
    fun f hmem core hcore hother field snapshot hfield hsnapshot => ?_⟩
  · refine (Collector.Settled.agrees id
      (hsettled.ranks core query hmem field snapshot hfield hsnapshot)
      (flatten_groupsOf_perm c.workshop snapshot) (flatten_groupsOf_perm w snapshot)
      (h.meets_outcome hsnapshot (tabulates_rankScores field) (modest_rankScores field) _ query)
      (h.meets_outcome hsnapshot (tabulates_rankScores field) (modest_rankScores field) _ query)).mono
        fun t t' hsame key => ?_
    simpa only [Option.map_id_fun, id_eq] using hsame key
  · exact Collector.Settled.agrees (f.readAt snapshot)
      (hsettled.sort f hmem core hcore hother field snapshot hfield hsnapshot)
      (flatten_groupsOf_perm c.workshop snapshot) (flatten_groupsOf_perm w snapshot)
      (h.meets_outcome hsnapshot (tabulates_firstDocs field) (modest_firstDocs field) _ _)
      (h.meets_outcome hsnapshot (tabulates_firstDocs field) (modest_firstDocs field) _ _)

/-! ### Phases -/

/-- Both main searches can succeed or neither can. -/
theorem Plan.Alike.feasible_iff {plan plan' : Plan} {segments : List Placed} (hplan : plan.Alike plan')
    (hfields : plan.fields = plan'.fields) : plan.Feasible segments ↔ plan'.Feasible segments := by
  have hanswers : ∀ field (placed : Placed),
      placed.segment.Answers plan.query field ↔ placed.segment.Answers plan'.query field :=
    fun field placed => placed.segment.answers_iff_of_equivalent hplan.query field
  constructor
  · rintro ⟨hsearch, hanswer⟩
    exact ⟨(hplan.query.searchable_iff segments).mp hsearch, fun field hfield placed hmem =>
      (hanswers field placed).mp (hanswer field (hfields ▸ hfield) placed hmem)⟩
  · rintro ⟨hsearch, hanswer⟩
    exact ⟨(hplan.query.searchable_iff segments).mpr hsearch, fun field hfield placed hmem =>
      (hanswers field placed).mpr (hanswer field (hfields ▸ hfield) placed hmem)⟩

section Phases

variable {catalog catalog' : Catalog} (h : c.Grounded catalog) {settings : Settings} {live : Liveness}
  {start stop : UInt64} (h' : (c.vary settings live start stop).Grounded catalog') {τ τ' : Type}
  (clock : StateM τ Nat) (clock' : StateM τ' Nat)
include h h'

/-- The plans of both calls are alike. -/
theorem Grounded.mirrors_planPhase {spared : Failure → Prop} (hsettled : c.Settled) :
    Act.Mirrors spared (fun s => s.1.Sound catalog) (fun t => t.1.Sound catalog')
      (fun plan plan' => plan.Alike plan' ∧ plan.fields = plan'.fields ∧
        c.request.sort.mapM c.clauseOf = .ok plan.clauses ∧
        c.request.sort.mapM (c.vary settings live start stop).clauseOf = .ok plan'.clauses)
      (CallM.toAct (c.planPhase clock))
      (CallM.toAct ((c.vary settings live start stop).planPhase clock')) := by
  have htables : c.SameTables (c.vary settings live start stop).workshop := hsettled.sameTables h _
  simp only [planPhase, CallM.toAct_bind]
  refine (mirrors_constraintsPhase h.lists h'.lists clock clock').bind fun all all' hall => ?_
  refine ((yields_fieldsPhase (c := c)).mirrors (yields_fieldsPhase (c := c.vary settings live start stop))
    (agrees_refl fun _ _ => rfl)).bind ?_
  rintro fields _ rfl
  refine ((yields_sortClauses h.lists clock).mirrors (yields_sortClauses h'.lists clock')
    htables.agrees_clauses.and_eq).bind ?_
  rintro clauses clauses' ⟨halike, hok, hok'⟩
  refine ((yields_rankSources h.lists clock).mirrors (yields_rankSources h'.lists clock')
    htables.agrees_ranks).bind fun ranks ranks' hranks => ?_
  exact Act.mirrors_pure ⟨⟨hall.narrow _, halike, hranks⟩, rfl, hok, hok'⟩

/-- The main searches of both calls find what they describe, or both fail, unless one of them gives up. -/
theorem Grounded.mirrors_mainPhase (hbudget : settings.retryBudget = c.settings.retryBudget)
    {plan plan' : Plan} (hplan : plan.Alike plan') (hfields : plan.fields = plan'.fields)
    (hclauses : c.request.sort.mapM c.clauseOf = .ok plan.clauses)
    (hclauses' : c.request.sort.mapM (c.vary settings live start stop).clauseOf = .ok plan'.clauses)
    {snapshot : Snapshot} (hsnapshot : c.snapshot c.target = .ok snapshot) :
    Act.Mirrors c.GivesUp (fun s => s.1.Sound catalog) (fun t => t.1.Sound catalog')
      (fun main main' => c.Describes plan snapshot.segments main ∧
        (c.vary settings live start stop).Describes plan' snapshot.segments main')
      (CallM.toAct (c.mainPhase clock plan))
      (CallM.toAct ((c.vary settings live start stop).mainPhase clock' plan')) := by
  have hfeasible : plan.Feasible snapshot.segments ↔ plan'.Feasible snapshot.segments :=
    hplan.feasible_iff hfields
  have hgives : ∀ failure, (c.vary settings live start stop).GivesUp failure → c.GivesUp failure := by
    rintro failure ⟨hcollapse, hfailure⟩
    exact ⟨hcollapse, hfailure.trans (congrArg Failure.retryBudgetExceeded hbudget)⟩
  refine Act.mirrors_of_comes (h.comes_mainPhase clock hclauses hsnapshot)
    (h'.comes_mainPhase clock' hclauses' hsnapshot) (fun main main' hmain hmain' => ⟨hmain.2, hmain'.2⟩)
    (fun main failure hmain hbad => ?_) fun main' failure hmain' hbad => ?_
  · exact hgives failure (hbad.resolve_right fun hnot => hnot (hfeasible.mp hmain.1))
  · exact hbad.resolve_right fun hnot => hnot (hfeasible.mpr hmain'.1)

/-- **The responses of both calls** are the same, but for the times, unless one of the calls gives up. -/
theorem Grounded.mirrors_respond (hsettled : c.Settled)
    (hbudget : settings.retryBudget = c.settings.retryBudget) (hstart : start = c.request.start)
    (hstop : stop = c.request.stop) :
    Act.Mirrors c.GivesUp (fun s => s.1.Sound catalog) (fun t => t.1.Sound catalog')
      (fun response response' => response.hits = response'.hits ∧ response.Alike response')
      (CallM.toAct (c.respond clock))
      (CallM.toAct ((c.vary settings live start stop).respond clock')) := by
  subst hstart hstop
  obtain ⟨snapshot, hsnapshot⟩ := h.target
  simp only [respond_eq_plan, CallM.toAct_bind]
  refine (h.mirrors_planPhase h' clock clock' hsettled).bind ?_
  rintro plan plan' ⟨hplan, hfields, hclauses, hclauses'⟩
  refine (h.mirrors_mainPhase h' clock clock' hbudget hplan hfields hclauses hclauses' hsnapshot).bind ?_
  rintro main main' ⟨hmain, hmain'⟩
  obtain ⟨halike, ordered, hhits, hhits'⟩ := hmain.alike hplan hfields hmain'
  have hsame : main.hits = main'.hits := hhits.trans hhits'.symm
  refine ((yields_facetsPhase h.lists clock main).mirrors (yields_facetsPhase h'.lists clock' main')
    (h.agrees_facetsOf settings live _ _ halike)).bind ?_
  rintro related _ rfl
  have hpage : (c.vary settings live c.request.start c.request.stop).page main'.hits =
      c.page main.hits := by
    rw [hsame]
    rfl
  rw [hpage]
  refine (Act.mirrors_ofExcept_self (c.page main.hits)).bind ?_
  rintro hits _ rfl
  exact fun s t hs ht =>
    .inl ⟨.ok ⟨rfl, c.alike_answer settings live _ _ halike related _ _ _ _⟩, hs, ht⟩

end Phases

/-! ### Checking that tables are settled -/

/-- Whether all matches of a core with one join key have the same value. -/
def settles {β : Type} [DecidableEq β] (c : Call) (core : String) (query : Query)
    (value : Snapshot → Hit → β) : Bool :=
  match c.request.keyField core c.target, c.snapshot core with
  | .ok field, .ok snapshot =>
    let found := keyed field (offers query snapshot.segments)
    found.all fun x => found.all fun y => x.1 ≠ y.1 || value snapshot x.2 = value snapshot y.2
  | _, _ => true

/-- Whether this is so for all rank queries and all sort fields of other cores. -/
def isSettled (c : Call) : Bool :=
  c.request.rankQueries.entries.all (fun e =>
    c.settles e.1 e.2 fun _ hit => ScoreCode.ofScore hit.score) &&
  c.request.sort.all fun f =>
    match f.core with
    | some core => core = c.target ||
      c.settles core (c.request.core core).fullQuery fun snapshot hit => f.readAt snapshot hit.doc
    | none => true

theorem settled_of_settles {β : Type} [DecidableEq β] {core : String} {query : Query}
    {value : Snapshot → Hit → β} (h : c.settles core query value = true) {field : String}
    {snapshot : Snapshot} (hfield : c.request.keyField core c.target = .ok field)
    (hsnapshot : c.snapshot core = .ok snapshot) :
    Collector.Settled (value snapshot) field query snapshot.segments := by
  refine settled_of_forall fun x hx y hy hkey => ?_
  simp only [settles, hfield, hsnapshot, List.all_eq_true] at h
  simpa [hkey] using h x hx y hy

theorem settled_of_isSettled (h : c.isSettled = true) : c.Settled := by
  rw [isSettled, Bool.and_eq_true, List.all_eq_true, List.all_eq_true] at h
  refine ⟨fun core query hmem field snapshot hfield hsnapshot =>
    settled_of_settles (h.1 _ hmem) hfield hsnapshot,
    fun f hmem core hcore hother field snapshot hfield hsnapshot => ?_⟩
  have hf := h.2 f hmem
  simp only [hcore, hother, decide_false, Bool.false_or] at hf
  exact settled_of_settles hf hfield hsnapshot

end Call

/-! ### At any time of a session -/

namespace Session

/-- **The number of groups does not show** in a response whose tables are settled, nor whether there
is a response, on whatever schedules. Only if hits are collapsed may a request fail with one number and
not with another one, and then because an update of a record used up its budget. -/
theorem answer_agrees [PatternEngines] (settings : Settings) (concurrency : Nat)
    {history history' : List Event}
    (hcores : (run { settings with concurrency } history').cores = (run settings history).cores)
    (r : Request)
    (hsettled : ∀ c, (run settings history).engine.call (run settings history).isHeld r = .ok c →
      c.Settled)
    (schedules schedules' : List Schedule) {τ τ' : Type} (clock : StateM τ Nat) (clock' : StateM τ' Nat)
    (now : τ) (now' : τ') :
    Agrees (fun response response' => response.hits = response'.hits ∧ response.Alike response')
        ((run settings history).answer r schedules clock now)
        ((run { settings with concurrency } history').answer r schedules' clock' now') ∨
      (r.collapse ≠ none ∧
        ((run settings history).answer r schedules clock now =
            .error (.retryBudgetExceeded settings.retryBudget) ∨
          (run { settings with concurrency } history').answer r schedules' clock' now' =
            .error (.retryBudgetExceeded settings.retryBudget))) := by
  have hengine : (run { settings with concurrency } history').engine.cores =
      (run settings history).engine.cores := cores_engine_eq hcores
  obtain ⟨catalog, hrecorded⟩ := exists_recorded settings history
  obtain ⟨catalog', hrecorded'⟩ := exists_recorded { settings with concurrency } history'
  rcases hcall : (run settings history).engine.call (run settings history).isHeld r with failure | c
  · have hfail := hcall
    rcases hcall' : (run { settings with concurrency } history').engine.call
        (run { settings with concurrency } history').isHeld r with failure' | c'
    · rw [answer_of_call_error hcall, answer_of_call_error hcall']
      exact .inl (.error failure failure')
    · have hcall := Call.call_vary hengine.symm (run settings history).isHeld hcall'
      exact absurd (hfail.symm.trans hcall) nofun
  · have hcall' := Call.call_vary hengine (run { settings with concurrency } history').isHeld hcall
    obtain ⟨hrequest, hsettings, -⟩ := Engine.of_call_eq_ok hcall
    rw [engine_settings_run] at hsettings
    have hbudget : (run { settings with concurrency } history').engine.settings.retryBudget =
        c.settings.retryBudget := by
      rw [hsettings, engine_settings_run]
    have hgives : ∀ failure, c.GivesUp failure →
        r.collapse ≠ none ∧ failure = .retryBudgetExceeded settings.retryBudget := by
      rw [← hrequest, ← hsettings]
      exact fun _ h => h
    have hmirrors := (hrecorded.grounded hcall).mirrors_respond (hrecorded'.grounded hcall') clock
      clock' (hsettled c hcall) hbudget (hrequest ▸ rfl) (hrequest ▸ rfl)
    rw [answer_of_call hcall, answer_of_call hcall']
    rcases hmirrors ((run settings history).beginning schedules now)
      ((run { settings with concurrency } history').beginning schedules' now') hrecorded.caches
      hrecorded'.caches with ⟨hagrees, -⟩ | ⟨failure, hfails, hspared⟩ | ⟨failure, hfails, hspared⟩
    · exact .inl hagrees
    · obtain ⟨hcollapse, rfl⟩ := hgives failure hspared
      exact .inr ⟨hcollapse, .inl hfails⟩
    · obtain ⟨hcollapse, rfl⟩ := hgives failure hspared
      exact .inr ⟨hcollapse, .inr hfails⟩

/-- A book, and copies of books in three segments. -/
def copiesHistory (copies : List Document) : List Event :=
  [.createCore "books", .addSegment 0 [{ id := "a1", fields := .ofList [("K", .int 7)] }],
    .createCore "stock"] ++ copies.map fun copy => .addSegment 1 [copy]

/-- A copy of the book with a key. -/
def copyOf (id : String) (key : Int64) (kind : String) : Document :=
  { id, fields := .ofList [("K", .int key), ("kind", .text kind)] }

/-- Two copies of the same kind, and one of another book. -/
def evenStock : List Event :=
  copiesHistory [copyOf "s0" 1 "new", copyOf "s1" 7 "new", copyOf "s2" 7 "new"]

/-- A new copy, a worn one, and one of another book. -/
def unevenStock : List Event :=
  copiesHistory [copyOf "s0" 1 "new", copyOf "s1" 7 "new", copyOf "s2" 7 "worn"]

/-- Books by the kind of their copies, where worn ones score higher. -/
def byWornCopies : Request :=
  (((Request.ofCore "books").join "books" "K" "stock" "K").rank "stock"
    (.bool [.all] [.term "kind" "worn"] [] [])).sortBy { core := some "stock", field := "kind" }

theorem answer_agrees_evenStock :
    let session := run (.standard 1) evenStock
    let session' := run { Settings.standard 1 with concurrency := 2 } evenStock
    session'.cores = session.cores ∧
      (∀ c, session.engine.call session.isHeld byWornCopies = .ok c → c.Settled) ∧
      Agrees (fun response response' => response.hits = response'.hits ∧ response.Alike response')
        (session.answer byWornCopies [] (pure 0 : StateM Unit Nat) ())
        (session'.answer byWornCopies [] (pure 0 : StateM Unit Nat) ()) := by
  intro session session'
  have hcores : session'.cores = session.cores := rfl
  have hcheck : (session.engine.call session.isHeld byWornCopies).toOption.all (·.isSettled) = true := by
    decide +kernel
  have hsettled : ∀ c, session.engine.call session.isHeld byWornCopies = .ok c → c.Settled := by
    intro c hcall
    rw [hcall] at hcheck
    exact Call.settled_of_isSettled hcheck
  exact ⟨hcores, hsettled,
    (answer_agrees _ 2 hcores _ hsettled [] [] _ _ _ _).resolve_right fun h => h.1 rfl⟩

/-- **With more groups** the score of the other copy may count. -/
theorem not_agrees_unevenStock :
    (run { Settings.standard 1 with concurrency := 2 } unevenStock).cores =
        (run (.standard 1) unevenStock).cores ∧
      ¬ Agrees (fun response response' => response.hits = response'.hits)
        ((run (.standard 1) unevenStock).answer byWornCopies [] (pure 0 : StateM Unit Nat) ())
        ((run { Settings.standard 1 with concurrency := 2 } unevenStock).answer byWornCopies []
          (pure 0 : StateM Unit Nat) ()) := by
  refine ⟨rfl, fun hagrees => ?_⟩
  have hhits : ((run (.standard 1) unevenStock).answer byWornCopies []
      (pure 0 : StateM Unit Nat) ()).toOption.map (·.hits) = some [⟨"a1", ⟨0x3fc00000⟩⟩] := by
    decide +kernel
  have hhits' : ((run { Settings.standard 1 with concurrency := 2 } unevenStock).answer byWornCopies []
      (pure 0 : StateM Unit Nat) ()).toOption.map (·.hits) = some [⟨"a1", ⟨0x40000000⟩⟩] := by
    decide +kernel
  generalize (run (.standard 1) unevenStock).answer byWornCopies [] (pure 0 : StateM Unit Nat) () =
    response, (run { Settings.standard 1 with concurrency := 2 } unevenStock).answer byWornCopies []
      (pure 0 : StateM Unit Nat) () = response' at hagrees hhits hhits'
  cases hagrees with
  | ok hsame =>
    have hdiffer := (congrArg some hsame).symm.trans hhits
    exact absurd (hdiffer.symm.trans hhits') (by decide)
  | error => exact nomatch hhits

end Session

end FederatedSearch
