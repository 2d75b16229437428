import FederatedSearch.Proofs.Query.Satisfies

/-!
# What a search visits

A segment is searched with the help of postings, column scans and bitmaps, and the deleted documents
are taken out at the end. Seen from outside none of this shows: the search goes through the documents
by number and stops at those that are live and match, each with the score that it has on its own.

It fails if some pattern of the query cannot be compiled, whether or not the clause with the pattern
makes a difference and whatever the documents are. The failure is about the first such pattern: of the
clauses that are required, that are optional, that filter and that exclude, in this order.

## Main definitions

* `PatternText`, `Query.patterns` — the patterns of a query
* `PatternText.fault?` — why a pattern cannot be compiled
* `Compiles` — a computation fails just for the first bad pattern
* `IndexedSegment.visited` — the documents that a search visits

## Main results

* `IndexedSegment.compiles_matching` — the evaluation of a query fails just for its patterns
* `IndexedSegment.search_eq_numbered` — the hits of a search, document by document
* `IndexedSegment.search_exact` — both together
-/

namespace FederatedSearch

/-! ### Patterns -/

/-- A pattern as it stands in a query. -/
inductive PatternText where
  | wildcard (text : String)
  | regex (text : String)

/-- Why the pattern cannot be compiled for a core, if it cannot. -/
def PatternText.fault? [PatternEngines] (core : String) : PatternText → Option RequestFault
  | wildcard text =>
    match PatternEngines.wildcard text with
    | .ok _ => none
    | .error report => some (.badWildcard text report core)
  | regex text =>
    match PatternEngines.regex text with
    | .ok _ => none
    | .error report => some (.badRegex text report core)

namespace Query

mutual

/-- The patterns anywhere in the query. -/
def patterns : Query → List PatternText
  | wildcard _ pattern => [.wildcard pattern]
  | regex _ pattern => [.regex pattern]
  | bool must should filter mustNot =>
    patternsAll must ++ (patternsAll should ++ (patternsAll filter ++ patternsAll mustNot))
  | _ => []

def patternsAll : List Query → List PatternText
  | [] => []
  | q :: qs => q.patterns ++ patternsAll qs

end

end Query

/-- The computation fails if there is a bad pattern, with the first one, and succeeds otherwise. -/
structure Compiles [PatternEngines] {α : Type} (core : String) (texts : List PatternText)
    (r : Except Failure α) :
    Prop where
  error : ∀ {fault}, texts.findSome? (·.fault? core) = some fault → r = .error (.invalidRequest fault)
  ok : texts.findSome? (·.fault? core) = none → ∃ x, r = .ok x

namespace Compiles

variable [PatternEngines] {α β : Type} {core : String} {texts more : List PatternText}
  {r : Except Failure α}

theorem nil (x : α) : Compiles core [] (.ok x : Except Failure α) := ⟨nofun, fun _ => ⟨x, rfl⟩⟩

theorem good {text : PatternText} (h : text.fault? core = none) (x : α) :
    Compiles core [text] (.ok x : Except Failure α) := by
  refine ⟨fun hfault => ?_, fun _ => ⟨x, rfl⟩⟩
  rw [List.findSome?_singleton, h] at hfault
  exact nomatch hfault

theorem bad {text : PatternText} {fault : RequestFault} (h : text.fault? core = some fault) :
    Compiles core [text] (.error (.invalidRequest fault) : Except Failure α) := by
  constructor <;> rw [List.findSome?_singleton, h]
  · intro fault' hfault
    rw [Option.some.inj hfault]
  · exact nofun

theorem bind (h : Compiles core texts r) {f : α → Except Failure β}
    (hf : ∀ x, Compiles core more (f x)) : Compiles core (texts ++ more) (r >>= f) where
  error := by
    intro fault hfault
    rw [List.findSome?_append, Option.or_eq_some_iff] at hfault
    rcases hfault with hfault | ⟨hnone, hfault⟩
    · rw [h.error hfault, error_bind]
    · obtain ⟨x, rfl⟩ := h.ok hnone
      exact (hf x).error hfault
  ok := by
    intro hnone
    rw [List.findSome?_append, Option.or_eq_none_iff] at hnone
    obtain ⟨x, rfl⟩ := h.ok hnone.1
    exact (hf x).ok hnone.2

theorem map (h : Compiles core texts r) (f : α → β) :
    Compiles core texts (r >>= fun x => pure (f x)) := by
  have hbind : Compiles core (texts ++ []) (r >>= fun x => pure (f x)) := h.bind fun x => nil (f x)
  rwa [List.append_nil] at hbind

end Compiles

namespace IndexedSegment

variable (s : IndexedSegment)

mutual

/-- **The evaluation of a query** fails just for the patterns in it. -/
theorem compiles_matching [PatternEngines] : ∀ q : Query, Compiles s.core q.patterns (s.matching q)
  | .all | .term _ _ | .range _ _ _ | .present _ | .joinKeys _ _ => by
    rw [Query.patterns, matching]
    exact .nil _
    all_goals exact nofun
  | .wildcard _ pattern => by
    rw [Query.patterns, matching]
    rcases hcompile : PatternEngines.wildcard pattern with report | describes
    · exact .bad (by rw [PatternText.fault?, hcompile])
    · exact .good (by rw [PatternText.fault?, hcompile]) _
  | .regex _ pattern => by
    rw [Query.patterns, matching]
    rcases hcompile : PatternEngines.regex pattern with report | finds
    · exact .bad (by rw [PatternText.fault?, hcompile])
    · exact .good (by rw [PatternText.fault?, hcompile]) _
  | .bool must should filter mustNot => by
    rw [Query.patterns, matching]
    exact (compiles_matchingAll must).bind fun _ => (compiles_matchingAll should).bind fun _ =>
      (compiles_matchingAll filter).bind fun _ => (compiles_matchingAll mustNot).map _

theorem compiles_matchingAll [PatternEngines] :
    ∀ qs : List Query, Compiles s.core (Query.patternsAll qs) (s.matchingAll qs)
  | [] => .nil _
  | q :: qs => by
    rw [Query.patternsAll, matchingAll]
    exact (compiles_matching q).bind fun _ => (compiles_matchingAll qs).map _

end

/-! ### Documents -/

/-- The numbers of the documents. -/
theorem map_snd_zipIdx : s.docs.toList.zipIdx.map (·.2) = List.range s.size := by
  rw [List.range_eq_range']
  exact List.zipIdx_map_snd 0 s.docs.toList

/-- What is known of a numbered document when the query is evaluated. -/
theorem reads_numbered [PatternEngines] {query : Query} {found : Matches}
    (hfound : s.matching query = .ok found) {e : Document × Nat} (hmem : e ∈ s.docs.toList.zipIdx) :
    found.docs.contains e.2 = e.1.satisfies query ∧ found.score e.2 = e.1.score query ∧
      Segment.stored e.2 (.indexed s) = .ok e.1 := by
  have hget : s.docs[e.2]? = some e.1 := by
    rw [← Array.getElem?_toList]
    exact List.mem_zipIdx_iff_getElem?.mp hmem
  obtain ⟨haccepts, hscore⟩ := reads_document hget ((exists_matching_iff s query).mp ⟨found, hfound⟩)
  rw [← accepts_eq hfound, ← scoreOf_eq hfound, Segment.stored, hget]
  exact ⟨haccepts, hscore, rfl⟩

/-- The live documents that match, with their numbers. -/
def numbered [PatternEngines] (query : Query) : List (Document × Nat) :=
  s.docs.toList.zipIdx.filter fun e => e.1.satisfies query && !s.deleted.contains e.2

theorem mem_numbered [PatternEngines] {query : Query} {d : Document} {doc : Nat} :
    (d, doc) ∈ s.numbered query ↔
      s.docs[doc]? = some d ∧ s.deleted.contains doc = false ∧ d.satisfies query = true := by
  rw [numbered, List.mem_filter, List.mem_zipIdx_iff_getElem?, Array.getElem?_toList, Bool.and_eq_true,
    Bool.not_eq_true', and_comm (a := d.satisfies query = true)]

/-- The numbers ascend. -/
theorem pairwise_numbered [PatternEngines] (query : Query) : (s.numbered query).Pairwise (·.2 < ·.2) := by
  have hall : s.docs.toList.zipIdx.Pairwise (·.2 < ·.2) := by
    rw [← List.pairwise_map (f := Prod.snd), map_snd_zipIdx]
    exact List.pairwise_lt_range
  exact hall.sublist List.filter_sublist

/-- **The hits of a search** that can be made are the live documents that match, in order. -/
theorem search_eq_numbered [PatternEngines] {query : Query} {found : Matches}
    (hfound : s.matching query = .ok found)
    (scored : Bool) : s.search query scored = .ok ((s.numbered query).map fun e =>
      ⟨e.2, if scored then e.1.score query else .zero⟩) := by
  have hsearch : s.search query scored = .ok ((s.docs.toList.zipIdx.filter fun e =>
      (found.docs.diff s.deleted).contains e.2).map fun e =>
        ⟨e.2, if scored then found.score e.2 else .zero⟩) := by
    rw [search, hfound, ok_bind, DocSet.toList, ← map_snd_zipIdx, List.filter_map]
    simp only [List.map_map]
    rfl
  have hmatch : (s.docs.toList.zipIdx.filter fun e => (found.docs.diff s.deleted).contains e.2) =
      s.numbered query := by
    refine List.filter_congr fun e hmem => ?_
    rw [DocSet.contains_diff, (s.reads_numbered hfound hmem).1]
  rw [hsearch, hmatch]
  refine congrArg _ (List.map_congr_left fun e hmem => ?_)
  rw [(s.reads_numbered hfound (List.mem_filter.mp hmem).1).2.1]

/-- **A search, exactly.** A bad pattern anywhere in the query makes the search fail, with the first one
reported, whatever the documents. Otherwise the search visits the live documents that match, each once
and by ascending number, and gives each the score that it has under the query. Without scoring it visits
the same documents. -/
theorem search_exact [PatternEngines] (query : Query) :
    match query.patterns.findSome? (·.fault? s.core) with
    | some fault => ∀ scored, s.search query scored = .error (.invalidRequest fault)
    | none => ∃ hits, s.search query true = .ok hits ∧
        s.search query false = .ok (hits.map fun hit => ⟨hit.doc, .zero⟩) ∧
        hits.Pairwise (·.doc < ·.doc) ∧
        ∀ doc score, (⟨doc, score⟩ : Hit) ∈ hits ↔ ∃ d, s.docs[doc]? = some d ∧
          s.deleted.contains doc = false ∧ d.satisfies query = true ∧ score = d.score query := by
  have hcompiles := s.compiles_matching query
  split
  · rename_i fault hfault
    intro scored
    rw [search, hcompiles.error hfault, error_bind]
  · rename_i hnone
    obtain ⟨found, hfound⟩ := hcompiles.ok hnone
    refine ⟨_, s.search_eq_numbered hfound true, ?_, ?_, fun doc score => ?_⟩
    · rw [s.search_eq_numbered hfound false, List.map_map]
      rfl
    · exact List.pairwise_map.mpr (s.pairwise_numbered query)
    · rw [List.mem_map]
      constructor
      · rintro ⟨⟨d, i⟩, hmem, heq⟩
        obtain ⟨rfl, rfl⟩ := Hit.mk.inj heq
        obtain ⟨hget, hlive, hmatch⟩ := s.mem_numbered.mp hmem
        exact ⟨d, hget, hlive, hmatch, rfl⟩
      · rintro ⟨d, hget, hlive, hmatch, rfl⟩
        exact ⟨(d, doc), s.mem_numbered.mpr ⟨hget, hlive, hmatch⟩, rfl⟩

/-- Both documents are big, and the first one is red besides. -/
example : paints.search (.bool [.term "size" "big"] [.term "color" "red"] [] []) true =
    .ok [⟨0, .one + .one⟩, ⟨1, .one⟩] := by decide +kernel

/-! ### What a search visits -/

variable [PatternEngines]

/-- The documents that a search visits, with their scores. -/
def visited (query : Query) (scored : Bool) : Except Failure (List (Document × Binary32)) := do
  let hits ← s.search query scored
  hits.mapM fun hit => do return (← Segment.stored hit.doc (.indexed s), hit.score)

/-- **A search** visits the live documents that match, in order and with their scores. -/
theorem visited_eq {query : Query} (h : query.compiles = true) (scored : Bool) :
    s.visited query scored = .ok ((s.liveDocuments.filter (·.satisfies query)).map fun d =>
      (d, if scored then d.score query else .zero)) := by
  obtain ⟨found, hfound⟩ := (exists_matching_iff s query).mpr h
  rw [visited, s.search_eq_numbered hfound, ok_bind, List.mapM_map]
  have hread : ∀ e ∈ s.numbered query,
      ((fun hit : Hit => do return (← Segment.stored hit.doc (.indexed s), hit.score)) ∘ fun e =>
        ⟨e.2, if scored then e.1.score query else .zero⟩) e =
          (pure (e.1, if scored then e.1.score query else .zero) : Except Failure _) := by
    intro e hmem
    obtain ⟨-, -, hstored⟩ := s.reads_numbered hfound (List.mem_filter.mp hmem).1
    simp only [Function.comp_apply, hstored]
    rfl
  rw [mapM_congr hread, List.mapM_pure, numbered, liveDocuments, List.filter_map, List.map_map,
    List.filter_filter]
  rfl

end IndexedSegment

end FederatedSearch
