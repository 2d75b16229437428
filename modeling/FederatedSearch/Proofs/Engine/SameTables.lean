import FederatedSearch.Proofs.Engine.Unseen

/-!
# Tables that look the same

A clause that sorts by another core has a table which leads from join keys to documents there, and a
rank query has one with scores. Not all of a table shows. A clause looks up the keys of hits and reads
the documents which they lead to, and what it reads is all that it compares. So if the tables of a call
look the same in a variation of it then hits have the same sort keys and the same scores.

They do look the same if there are as many groups. That does not need a schedule, since groups that
search for a table share nothing.

## Main definitions

* `SortField.readAt` — what a sort field reads in another core
* `Call.SameTables` — the tables of a call look the same in a variation of it

## Main results

* `Call.SameTables.agrees_clauses`, `Call.SameTables.agrees_ranks` — so do the clauses and the scores
* `Call.Lists.sameTables` — with as many groups
-/

namespace FederatedSearch

/-- What a sort field reads in the document of another core with a number. -/
def SortField.readAt (f : SortField) (other : Snapshot) (number : Nat) :
    Option (Except Failure SortKey) :=
  (other.locate number).map fun found =>
    (SortReading.ofField f).read f.field found.1.segment ⟨found.2, .zero⟩

/-- The sort key of a hit that leads to another core. -/
theorem SortClause.key_related {f : SortField} {keyField : String} {table : DocTable}
    {other : Snapshot} {clause : SortClause} (h : related? f keyField table other = .ok clause)
    (bound : Bound) (placed : Placed) (hit : Hit) :
    clause.key bound placed hit =
      if bound.key keyField hit.doc = noKey then .ok (SortReading.ofField f).missingKey
      else ((table.get? (bound.key keyField hit.doc)).map (f.readAt other)).join.getD
        (.ok (SortReading.ofField f).missingKey) := by
  rw [related?] at h
  split at h
  · exact absurd h error_ne_ok
  · obtain rfl := Except.ok.inj h
    simp only [key]
    split
    · rfl
    · rcases table.get? (bound.key keyField hit.doc) with _ | number
      · rfl
      · rw [Option.bind_some, Option.map_some, Option.join_some, SortField.readAt]
        rcases other.locate number with _ | found <;> rfl

/-- Clauses by tables that look the same are alike. -/
theorem SortClause.agrees_related {f : SortField} {keyField : String} {table table' : DocTable}
    {other : Snapshot}
    (h : ∀ key, (table.get? key).map (f.readAt other) = (table'.get? key).map (f.readAt other)) :
    Agrees Alike (related? f keyField table other) (related? f keyField table' other) := by
  by_cases hscore : f.valueType = .score
  · rw [related?, related?, if_pos hscore, if_pos hscore]
    exact .error _ _
  · have hok : ∀ table, ∃ clause, related? f keyField table other = .ok clause ∧
        clause.order = f.order ∧ clause.missing = f.missing :=
      fun _ => ⟨_, if_neg hscore, rfl, rfl⟩
    obtain ⟨clause, hclause, horder, hmissing⟩ := hok table
    obtain ⟨clause', hclause', horder', hmissing'⟩ := hok table'
    rw [hclause, hclause']
    refine .ok ⟨horder.trans horder'.symm, hmissing.trans hmissing'.symm, fun bound placed hit => ?_⟩
    rw [key_related hclause, key_related hclause', h]

namespace Call

open Collector

variable [PatternEngines]

/-- The tables look the same in another workshop: those of rank queries have the same scores, and those of
sort fields lead to documents with the same sort keys. -/
structure SameTables (c : Call) (w : Workshop) : Prop where
  ranks : ∀ core query, (core, query) ∈ c.request.rankQueries.entries → ∀ field snapshot,
    c.request.keyField core c.target = .ok field → c.snapshot core = .ok snapshot →
      Agrees (fun t t' : RankTable => ∀ key, t.get? key = t'.get? key)
        ((rankScores field).outcome c.workshop snapshot query)
        ((rankScores field).outcome w snapshot query)
  sort : ∀ f ∈ c.request.sort, ∀ core, f.core = some core → core ≠ c.target → ∀ field snapshot,
    c.request.keyField core c.target = .ok field → c.snapshot core = .ok snapshot →
      Agrees (fun t t' : DocTable => ∀ key,
          (t.get? key).map (f.readAt snapshot) = (t'.get? key).map (f.readAt snapshot))
        ((firstDocs field).outcome c.workshop snapshot (c.request.core core).fullQuery)
        ((firstDocs field).outcome w snapshot (c.request.core core).fullQuery)

variable {c : Call} {settings : Settings} {live : Liveness} {start stop : UInt64}

namespace SameTables

variable (h : c.SameTables (c.vary settings live start stop).workshop)
include h

theorem agrees_rankOf {core : String} {query : Query}
    (hmem : (core, query) ∈ c.request.rankQueries.entries) :
    Agrees RankSource.Alike (c.rankOf core query)
      ((c.vary settings live start stop).rankOf core query) := by
  rw [rankOf, rankOf]
  refine agrees_bind_self fun ownField hown => ?_
  have htable : Agrees (fun t t' : RankTable => ∀ key, t.get? key = t'.get? key)
      (c.snapshot core >>= fun snapshot => (rankScores ownField).outcome c.workshop snapshot query)
      (c.snapshot core >>= fun snapshot =>
        (rankScores ownField).outcome (c.vary settings live start stop).workshop snapshot query) :=
    agrees_bind_self fun snapshot hsnapshot => h.ranks core query hmem ownField snapshot hown hsnapshot
  refine htable.bind fun table table' hsame => agrees_bind_self fun field _ => .ok ⟨rfl, fun key => ?_⟩
  rw [RankTable.score, RankTable.score, hsame]

theorem agrees_relatedClauseOf {f : SortField} (hmem : f ∈ c.request.sort) {core : String}
    (hcore : f.core = some core) (hother : core ≠ c.target) :
    Agrees SortClause.Alike (c.relatedClauseOf core f)
      ((c.vary settings live start stop).relatedClauseOf core f) := by
  rw [relatedClauseOf, relatedClauseOf]
  refine agrees_bind_self fun ownField hown => ?_
  have htable : Agrees (fun t t' : DocTable => ∀ other, c.snapshot core = .ok other → ∀ key,
        (t.get? key).map (f.readAt other) = (t'.get? key).map (f.readAt other))
      (c.snapshot core >>= fun snapshot =>
        (firstDocs ownField).outcome c.workshop snapshot (c.request.core core).fullQuery)
      (c.snapshot core >>= fun snapshot => (firstDocs ownField).outcome
        (c.vary settings live start stop).workshop snapshot (c.request.core core).fullQuery) := by
    refine agrees_bind_self fun snapshot hsnapshot => ?_
    refine (h.sort f hmem core hcore hother ownField snapshot hown hsnapshot).mono ?_
    intro t t' hsame other hother
    obtain rfl := Except.ok.inj (hsnapshot.symm.trans hother)
    exact hsame
  refine htable.bind fun table table' hsame => agrees_bind_self fun field _ =>
    agrees_bind_self fun snapshot hsnapshot => ?_
  exact SortClause.agrees_related (hsame snapshot hsnapshot)

theorem agrees_clauseOf {f : SortField} (hmem : f ∈ c.request.sort) :
    Agrees SortClause.Alike (c.clauseOf f) ((c.vary settings live start stop).clauseOf f) := by
  have htarget : (c.vary settings live start stop).target = c.target := rfl
  rw [clauseOf, clauseOf, htarget]
  rcases hcore : f.core with _ | core
  · exact agrees_refl fun clause _ => .refl clause
  · by_cases hother : core = c.target
    · simp only [hother, if_true]
      exact agrees_refl fun clause _ => .refl clause
    · simp only [hother, if_false]
      exact h.agrees_relatedClauseOf hmem hcore hother

/-- **The clauses** of a call and a variation of it. -/
theorem agrees_clauses : Agrees (List.Forall₂ SortClause.Alike) (c.request.sort.mapM c.clauseOf)
    (c.request.sort.mapM (c.vary settings live start stop).clauseOf) :=
  agrees_mapM fun _ hmem => h.agrees_clauseOf hmem

/-- **The scores** of a call and a variation of it. -/
theorem agrees_ranks : Agrees (List.Forall₂ RankSource.Alike)
    (c.request.rankQueries.entries.mapM fun e => c.rankOf e.1 e.2)
    (c.request.rankQueries.entries.mapM fun e => (c.vary settings live start stop).rankOf e.1 e.2) :=
  agrees_mapM fun _ hmem => h.agrees_rankOf hmem

end SameTables

/-- **With as many groups** all tables are the same. -/
theorem Lists.sameTables {catalog : Catalog} (hlists : c.Lists catalog)
    (hconcurrency : settings.concurrency = c.settings.concurrency) :
    c.SameTables (c.vary settings live start stop).workshop := by
  have hgroups : ∀ snapshot, groupsOf (c.vary settings live start stop).workshop snapshot =
      groupsOf c.workshop snapshot := fun snapshot =>
    congrArg (fun concurrency => (partitionSegments snapshot.segments concurrency).map _) hconcurrency
  refine ⟨fun core query _ field snapshot _ hsnapshot => ?_,
    fun f _ core _ _ field snapshot _ hsnapshot => ?_⟩
  · refine ((quiet_rankScores field).agrees_outcome (modest_rankScores field) (hlists.snapshot hsnapshot)
      (hgroups snapshot)).mono ?_
    rintro t _ rfl key
    rfl
  · refine ((quiet_firstDocs field).agrees_outcome (modest_firstDocs field) (hlists.snapshot hsnapshot)
      (hgroups snapshot)).mono ?_
    rintro t _ rfl key
    rfl

end Call

end FederatedSearch
