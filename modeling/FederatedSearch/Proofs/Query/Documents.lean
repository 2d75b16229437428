import FederatedSearch.Proofs.Json.Expressible
import FederatedSearch.Query.Json

/-!
# Queries as documents

Every query without key sets has a document that text can express, and reading the document gives the
query back. The reader is handed a bound on the nesting; any bound above the depth of the document
does, and so does any place in another document.

## Main definitions

* `Query.isKeyFree` — queries without key sets
* `Query.IsDocument` — what is written for a query, and read as it

## Main results

* `Query.exists_document` — a query has a document, wherever it is part of another one
* `Query.exists_whole` — and on its own
-/

namespace FederatedSearch

namespace Query

mutual

/-- No key set occurs in the query. -/
def isKeyFree : Query → Bool
  | bool must should filter mustNot =>
    allKeyFree must && allKeyFree should && allKeyFree filter && allKeyFree mustNot
  | joinKeys _ _ => false
  | _ => true

def allKeyFree : List Query → Bool
  | [] => true
  | q :: qs => q.isKeyFree && allKeyFree qs

end

open Json (isExpressible allExpressible membersExpressible depth depthItems depthMembers fields?
  field?_cons tagged?_object required defaulted toText? toList?)

/-! ### Bounds of a range -/

theorem isExpressible_optionalBound (bound : Option Int64) :
    (optionalBound bound).isExpressible = true := by
  cases bound with
  | none => rfl
  | some v => exact Json.isExpressible_int64 v

theorem toOptional?_optionalBound (bound : Option Int64) :
    Json.toOptional? Json.toInt64? (optionalBound bound) = some bound := by
  cases bound with
  | none => rfl
  | some v => exact congrArg (Option.map some) (Json.toInt64?_toInt v)

/-! ### Documents of queries -/

/-- `j` is the document of `q`. -/
abbrev IsDocument (q : Query) (j : Json) : Prop := Json.IsNested toJson? ofJsonWithin? q j

/-- The same for a list of clauses, which are always part of another query. -/
structure AreDocuments (qs : List Query) (items : List Json) : Prop where
  written : listToJson? qs = some items
  expressible : allExpressible items = true
  read : ∀ room, depthItems items < room → items.mapM (ofJsonWithin? room true) = some qs

mutual

/-- **Every query without key sets has a document.** -/
theorem exists_document : ∀ q : Query, q.isKeyFree = true → ∃ j, IsDocument q j
  | all, _ => by
    refine ⟨_, .intro rfl (by simp [isExpressible, membersExpressible])
      fun hexpressible room inside _ => ?_⟩
    rw [ofJsonWithin?, tagged?_object (by simp [variants]) hexpressible]
    rfl
  | term f v, _ => by
    refine ⟨_, .intro rfl (by simp [isExpressible, membersExpressible])
      fun hexpressible room inside _ => ?_⟩
    rw [ofJsonWithin?, tagged?_object (by simp [variants]) hexpressible]
    simp [textPair?, fields?, field?_cons, required, toText?]
  | range f least greatest, _ => by
    refine ⟨_, .intro rfl (by simp [isExpressible, membersExpressible, isExpressible_optionalBound])
      fun hexpressible room inside _ => ?_⟩
    rw [ofJsonWithin?, tagged?_object (by simp [variants]) hexpressible]
    simp [fields?, field?_cons, required, defaulted, toText?, toOptional?_optionalBound]
  | present f, _ => by
    refine ⟨_, .intro rfl (by simp [isExpressible, membersExpressible])
      fun hexpressible room inside _ => ?_⟩
    rw [ofJsonWithin?, tagged?_object (by simp [variants]) hexpressible]
    simp [fields?, field?_cons, required, toText?]
  | wildcard f p, _ => by
    refine ⟨_, .intro rfl (by simp [isExpressible, membersExpressible])
      fun hexpressible room inside _ => ?_⟩
    rw [ofJsonWithin?, tagged?_object (by simp [variants]) hexpressible]
    simp [textPair?, fields?, field?_cons, required, toText?]
  | regex f p, _ => by
    refine ⟨_, .intro rfl (by simp [isExpressible, membersExpressible])
      fun hexpressible room inside _ => ?_⟩
    rw [ofJsonWithin?, tagged?_object (by simp [variants]) hexpressible]
    simp [textPair?, fields?, field?_cons, required, toText?]
  | bool must should filter mustNot, h => by
    simp only [isKeyFree, Bool.and_eq_true] at h
    obtain ⟨⟨⟨hmust, hshould⟩, hfilter⟩, hmustNot⟩ := h
    obtain ⟨musts, hmust⟩ := exists_documents must hmust
    obtain ⟨shoulds, hshould⟩ := exists_documents should hshould
    obtain ⟨filters, hfilter⟩ := exists_documents filter hfilter
    obtain ⟨mustNots, hmustNot⟩ := exists_documents mustNot hmustNot
    have hwritten : toJson? (bool must should filter mustNot) =
        some (.object [("type", .text "bool"), ("must", .array musts), ("should", .array shoulds),
          ("filter", .array filters), ("must_not", .array mustNots)]) := by
      simp [toJson?, hmust.written, hshould.written, hfilter.written, hmustNot.written]
    refine ⟨_, .intro hwritten ?_ fun hexpressible room inside hroom => ?_⟩
    · simp [isExpressible, membersExpressible, hmust.expressible, hshould.expressible,
        hfilter.expressible, hmustNot.expressible]
    · simp only [depth, depthMembers] at hroom
      rw [ofJsonWithin?, tagged?_object (by simp [variants]) hexpressible]
      simp [fields?, field?_cons, defaulted, toList?, hmust.read room (by omega),
        hshould.read room (by omega), hfilter.read room (by omega), hmustNot.read room (by omega)]
  | joinKeys _ _, h => by simp [isKeyFree] at h

theorem exists_documents : ∀ qs : List Query, allKeyFree qs = true → ∃ items, AreDocuments qs items
  | [], _ => ⟨[], rfl, rfl, fun _ _ => rfl⟩
  | q :: qs, h => by
    simp only [allKeyFree, Bool.and_eq_true] at h
    obtain ⟨j, hj⟩ := exists_document q h.1
    obtain ⟨items, hitems⟩ := exists_documents qs h.2
    refine ⟨j :: items, ?_, ?_, fun room hroom => ?_⟩
    · simp [listToJson?, hj.written, hitems.written]
    · simp [allExpressible, hj.expressible, hitems.expressible]
    · simp only [depthItems] at hroom
      simp [hj.read room true (by omega), hitems.read room (by omega)]

end

/-- A document that is a query as a whole. -/
theorem exists_whole {q : Query} (h : q.isKeyFree = true) : ∃ j, Json.IsDocument toJson? ofJson? q j :=
  (exists_document q h).imp fun _ hj => hj.isDocument false

end Query

end FederatedSearch
