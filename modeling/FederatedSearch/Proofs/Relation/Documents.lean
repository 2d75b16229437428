import FederatedSearch.Proofs.Query.Documents
import FederatedSearch.Relation.Json

/-!
# Relational expressions as documents

Every expression whose leaves ask for no key sets has a document that text can express, and reading
the document gives the expression back. An operator stands in its document as the tag, and the operands
as records of their own; the query of a leaf is read as part of a tagged record, whatever its depth.

## Main definitions

* `RelationalExpr.isKeyFree` — expressions without key sets
* `RelationalExpr.IsDocument` — what is written for an expression, and read as it

## Main results

* `RelationalExpr.exists_document` — an expression has a document, also as an operand
* `RelationalExpr.exists_whole` — and on its own
-/

namespace FederatedSearch

namespace RelationalExpr

/-- No key set occurs in the query of a leaf. -/
def isKeyFree : RelationalExpr → Bool
  | leaf _ query _ => query.isKeyFree
  | and first second => first.isKeyFree && second.isKeyFree
  | or first second => first.isKeyFree && second.isKeyFree
  | not inner => inner.isKeyFree

open Json (isExpressible membersExpressible depth depthMembers fields? field?_cons tagged?_object
  required toText?)

/-- `j` is the document of `e`. -/
abbrev IsDocument (e : RelationalExpr) (j : Json) : Prop := Json.IsNested toJson? ofJsonWithin? e j

/-- Conjunctions and disjunctions differ in their tags only. -/
theorem isDocument_pair {variant : String} {first second e : RelationalExpr} {a b : Json}
    (hvariant : variant = "and" ∧ e = and first second ∨ variant = "or" ∧ e = or first second)
    (ha : IsDocument first a) (hb : IsDocument second b) :
    IsDocument e (.object [("op", .text variant), ("first", a), ("second", b)]) := by
  have hwritten : e.toJson? = some (.object [("op", .text variant), ("first", a), ("second", b)]) := by
    rcases hvariant with ⟨rfl, rfl⟩ | ⟨rfl, rfl⟩ <;> simp [toJson?, ha.written, hb.written]
  refine .intro hwritten ?_ fun hexpressible room inside hroom => ?_
  · simp [isExpressible, membersExpressible, ha.expressible, hb.expressible]
  · simp only [depth, depthMembers] at hroom
    have hfirst := ha.read room true (by omega)
    have hsecond := hb.read room true (by omega)
    rcases hvariant with ⟨rfl, rfl⟩ | ⟨rfl, rfl⟩ <;>
    · rw [ofJsonWithin?, tagged?_object (by simp [variants]) hexpressible]
      simp [fields?, field?_cons, required, hfirst, hsecond]

/-- **Every expression without key sets has a document.** -/
theorem exists_document {e : RelationalExpr} (h : e.isKeyFree = true) : ∃ j, IsDocument e j := by
  induction e with
  | leaf core query field =>
    obtain ⟨j, hj⟩ := Query.exists_document query h
    have hwritten : toJson? (leaf core query field) =
        some (.object [("op", .text "leaf"), ("core", .text core), ("query", j),
          ("key_field", .text field)]) := by
      simp [toJson?, hj.written]
    refine ⟨_, .intro hwritten ?_ fun hexpressible room inside _ => ?_⟩
    · simp [isExpressible, membersExpressible, hj.expressible]
    · rw [ofJsonWithin?, tagged?_object (by simp [variants]) hexpressible]
      simp [fields?, field?_cons, required, toText?, (hj.isDocument true).read]
  | and first second ihfirst ihsecond =>
    simp only [isKeyFree, Bool.and_eq_true] at h
    obtain ⟨a, ha⟩ := ihfirst h.1
    obtain ⟨b, hb⟩ := ihsecond h.2
    exact ⟨_, isDocument_pair (.inl ⟨rfl, rfl⟩) ha hb⟩
  | or first second ihfirst ihsecond =>
    simp only [isKeyFree, Bool.and_eq_true] at h
    obtain ⟨a, ha⟩ := ihfirst h.1
    obtain ⟨b, hb⟩ := ihsecond h.2
    exact ⟨_, isDocument_pair (.inr ⟨rfl, rfl⟩) ha hb⟩
  | not inner ih =>
    obtain ⟨a, ha⟩ := ih h
    have hwritten : toJson? (not inner) = some (.object [("op", .text "not"), ("inner", a)]) := by
      simp [toJson?, ha.written]
    refine ⟨_, .intro hwritten ?_ fun hexpressible room inside hroom => ?_⟩
    · simp [isExpressible, membersExpressible, ha.expressible]
    · simp only [depth, depthMembers] at hroom
      rw [ofJsonWithin?, tagged?_object (by simp [variants]) hexpressible]
      simp [fields?, field?_cons, required, ha.read room true (by omega)]

/-- A document that is an expression as a whole. -/
theorem exists_whole {e : RelationalExpr} (h : e.isKeyFree = true) :
    ∃ j, Json.IsDocument toJson? ofJson? e j :=
  (exists_document h).imp fun _ hj => hj.isDocument false

end RelationalExpr

end FederatedSearch
