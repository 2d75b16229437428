import FederatedSearch.Proofs.NameMap
import FederatedSearch.Request.Basic

/-!
# The cores that a request names

The name of a core can stand in many places of a request. `Request.Names` has one rule for each of
them, down to the leaves of the relational expression, and the list that the request gives of the
cores it names has just these.

## Main definitions

* `RelationalExpr.HasLeaf` — the leaves of an expression
* `Request.Names` — the request names a core

## Main results

* `RelationalExpr.mem_cores_iff`, `Request.mem_referencedCores_iff` — the lists are complete
-/

namespace FederatedSearch

/-- Somewhere in the expression there is a leaf with this core, query and field. -/
inductive RelationalExpr.HasLeaf (core : String) (query : Query) (field : String) :
    RelationalExpr → Prop where
  | leaf : HasLeaf core query field (.leaf core query field)
  | andFirst {first second} (h : HasLeaf core query field first) :
    HasLeaf core query field (.and first second)
  | andSecond {first second} (h : HasLeaf core query field second) :
    HasLeaf core query field (.and first second)
  | orFirst {first second} (h : HasLeaf core query field first) :
    HasLeaf core query field (.or first second)
  | orSecond {first second} (h : HasLeaf core query field second) :
    HasLeaf core query field (.or first second)
  | not {inner} (h : HasLeaf core query field inner) : HasLeaf core query field (.not inner)

/-- The cores of an expression are those of its leaves. -/
theorem RelationalExpr.mem_cores_iff {name : String} {e : RelationalExpr} :
    name ∈ e.cores ↔ ∃ query field, e.HasLeaf name query field := by
  constructor
  · intro hmem
    induction e with
    | leaf core query field =>
      obtain rfl := List.mem_singleton.mp hmem
      exact ⟨query, field, .leaf⟩
    | and first second ihf ihs =>
      rcases List.mem_append.mp hmem with hmem | hmem
      · obtain ⟨query, field, hleaf⟩ := ihf hmem
        exact ⟨query, field, .andFirst hleaf⟩
      · obtain ⟨query, field, hleaf⟩ := ihs hmem
        exact ⟨query, field, .andSecond hleaf⟩
    | or first second ihf ihs =>
      rcases List.mem_append.mp hmem with hmem | hmem
      · obtain ⟨query, field, hleaf⟩ := ihf hmem
        exact ⟨query, field, .orFirst hleaf⟩
      · obtain ⟨query, field, hleaf⟩ := ihs hmem
        exact ⟨query, field, .orSecond hleaf⟩
    | not inner ih =>
      obtain ⟨query, field, hleaf⟩ := ih hmem
      exact ⟨query, field, .not hleaf⟩
  · rintro ⟨query, field, hleaf⟩
    induction hleaf with
    | leaf => exact List.mem_singleton_self name
    | andFirst _ ih | orFirst _ ih => exact List.mem_append_left _ ih
    | andSecond _ ih | orSecond _ ih => exact List.mem_append_right _ ih
    | not _ ih => exact ih

namespace Request

/-- The name of a core occurs in the request. -/
inductive Names (r : Request) : String → Prop where
  | result : Names r r.resultsFrom
  | participant {name} (h : name ∈ r.cores.keys) : Names r name
  | linkSource {link} (h : link ∈ r.links) : Names r link.source
  | linkTarget {link} (h : link ∈ r.links) : Names r link.target
  | uniteA {u} (h : u ∈ r.unites) : Names r u.coreA
  | uniteB {u} (h : u ∈ r.unites) : Names r u.coreB
  | ranked {name} (h : name ∈ r.rankQueries.keys) : Names r name
  | sorted {f name} (h : f ∈ r.sort) (hcore : f.core = some name) : Names r name
  | leaf {filter name query field} (h : r.relationalFilter = some filter)
    (hleaf : filter.expr.HasLeaf name query field) : Names r name

/-- **The list of the cores** that a request names has each name that occurs in it, and no other. -/
theorem mem_referencedCores_iff {r : Request} {name : String} :
    name ∈ r.referencedCores ↔ r.Names name := by
  rw [referencedCores, NameMap.mem_keys_ofList, List.map_map]
  simp only [Function.comp_def, List.map_id', List.mem_append, List.mem_flatMap, List.mem_cons,
    List.not_mem_nil, or_false, List.mem_filterMap]
  constructor
  · rintro ((((((rfl | h) | ⟨link, h, rfl | rfl⟩) | ⟨u, h, rfl | rfl⟩) | h) | ⟨f, h, hcore⟩) | h)
    · exact .result
    · exact .participant h
    · exact .linkSource h
    · exact .linkTarget h
    · exact .uniteA h
    · exact .uniteB h
    · exact .ranked h
    · exact .sorted h hcore
    · cases hfilter : r.relationalFilter with
      | none => simp [hfilter] at h
      | some filter =>
        rw [hfilter] at h
        obtain ⟨query, field, hleaf⟩ := RelationalExpr.mem_cores_iff.mp h
        exact .leaf hfilter hleaf
  · intro h
    cases h with
    | result => simp
    | participant h | ranked h => simp [h]
    | linkSource h | linkTarget h =>
      exact .inl (.inl (.inl (.inl (.inr ⟨_, h, by simp⟩))))
    | uniteA h | uniteB h => exact .inl (.inl (.inl (.inr ⟨_, h, by simp⟩)))
    | sorted h hcore => exact .inl (.inr ⟨_, h, hcore⟩)
    | leaf h hleaf =>
      refine .inr ?_
      rw [h]
      exact RelationalExpr.mem_cores_iff.mpr ⟨_, _, hleaf⟩

/-- The names are listed in order. -/
theorem referencedCores_sorted (r : Request) : r.referencedCores.Pairwise (· < ·) :=
  NameMap.keys_sorted _

end Request

end FederatedSearch
