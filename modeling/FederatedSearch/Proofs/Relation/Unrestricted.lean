import FederatedSearch.Proofs.Relation.Reading

/-!
# Relational expressions without a restriction

An expression that is evaluated on its own denotes the Boolean reading of its effective form: its own
reading, unless some conjunction in it has a complement on the left and, on the right, a plain set
that was made by negating a set cut back to that complement. Such a conjunction comes out as an
implication.

The smallest expressions of this kind have the form `¬a ∧ ¬(¬b ∨ c)`; they are perfectly sensible
requests, and the keys of `a`, which they exclude, are given back.

## Main results

* `evaluate_unrestricted` — what an expression is evaluated to, and when that is its reading
* `not_evaluate_reads` — an expression that is evaluated to something else
-/

namespace FederatedSearch

namespace RelationalExpr

/-- **An expression on its own** is evaluated, by every source that answers its leaves, to the keys
at which its effective form reads true. Unless it overreaches these are the keys at which it reads
true itself; and if it does, with pairwise different leaves, then leaves can hold a key in such a
way that the two readings differ. -/
theorem evaluate_unrestricted (collect : String → Query → String → Except Failure KeyBits)
    (e : RelationalExpr) (h : ∀ l ∈ e.leaves, AnswersLeaf collect l) :
    (∃ set, e.evaluate collect none = .ok set ∧ ∀ key : JoinKey, 1 ≤ key →
      set.contains key = e.effective.reads (isFound collect key) ∧
      (e.overreaches = false → set.contains key = e.reads (isFound collect key))) ∧
    (e.leaves.Nodup → e.overreaches = true →
      ∃ holds : String → Query → String → Bool, e.effective.reads holds ≠ e.reads holds) := by
  obtain ⟨set, hok, -, hset⟩ := evaluate_within_complement h none (by simp)
  have hreads : ∀ key : JoinKey, 1 ≤ key →
      set.contains key = e.effective.reads (isFound collect key) := by
    intro key hkey
    -- everything is allowed, so it makes no difference whether the set spills
    rw [hset key hkey]
    cases e.spills <;> simp [within]
  refine ⟨⟨set, hok, fun key hkey => ⟨hreads key hkey, fun hover => ?_⟩⟩,
    exists_reads_effective_ne⟩
  rw [hreads key hkey, effective_eq_self hover]

/-! ### An expression that overreaches

Three documents with the keys 1, 2 and 3 are red, blue and green. -/

/-- The colour of the document with a key. -/
def colourOf (key : JoinKey) : String :=
  if key = 1 then "red" else if key = 2 then "blue" else "green"

/-- Whether the document with a key matches a query for a colour, which may be restricted. -/
def matchesColour (key : JoinKey) : Query → Bool
  | .term _ colour => colourOf key = colour
  | .bool [.term _ colour] [] [.joinKeys _ keys] [] => colourOf key = colour && keys.contains key
  | _ => false

/-- The source of keys that searches the three documents. -/
def searchColours (_core : String) (query : Query) (_field : String) : Except Failure KeyBits :=
  KeyBits.ofList? ([1, 2, 3].filter fun key => matchesColour key query)

/-- Neither red nor of a colour other than blue. -/
def blueNotRed : RelationalExpr :=
  and (not (leaf "paint" (.term "colour" "red") "key"))
    (not (or (not (leaf "paint" (.term "colour" "blue") "key"))
      (leaf "paint" (.term "colour" "green") "key")))

theorem searchColours_eq_ok (core field : String) (query : Query) :
    ∃ bits, searchColours core query field = .ok bits ∧
      ∀ key : Nat, bits.contains key =
        ([1, 2, 3].filter fun key => matchesColour key query).contains key := by
  obtain ⟨bits, hok, hbits⟩ := KeyBits.insertAll?_eq_ok
    ([1, 2, 3].filter fun key => matchesColour key query) (by
      intro key hkey
      have hmem : key = 1 ∨ key = 2 ∨ key = 3 := by
        simpa using (List.mem_filter.mp hkey).1
      rcases hmem with rfl | rfl | rfl <;> decide) .empty
  exact ⟨bits, hok, fun key => by rw [hbits, KeyBits.contains_empty, Bool.or_false]⟩

theorem answersLeaf_searchColours (core field keyField colour : String) :
    AnswersLeaf searchColours (core, .term field colour, keyField) where
  found := (searchColours_eq_ok core keyField (.term field colour)).imp fun _ h => h.1
  restricted := by
    intro bits hbits keys
    obtain ⟨bits', hok, hcontains⟩ := searchColours_eq_ok core keyField (.term field colour)
    obtain ⟨kept, hkept, hkeep⟩ := searchColours_eq_ok core keyField
      ((Query.term field colour).withFilter (.joinKeys keyField keys))
    obtain rfl : bits' = bits := Except.ok.inj (hok.symm.trans hbits)
    refine ⟨kept, hkept, fun key _ => ?_⟩
    rw [hkeep, hcontains, Bool.eq_iff_iff]
    simp only [Query.withFilter, Query.restrict, matchesColour, List.contains_iff_mem, List.mem_filter,
      Bool.and_eq_true]
    simp [and_assoc]

theorem answersLeaf_blueNotRed : ∀ l ∈ blueNotRed.leaves, AnswersLeaf searchColours l := by
  intro l hl
  simp only [blueNotRed, leaves, List.cons_append, List.nil_append, List.mem_cons,
    List.not_mem_nil, or_false] at hl
  rcases hl with rfl | rfl | rfl <;> exact answersLeaf_searchColours _ _ _ _

/-- The theorem at an expression that overreaches and one that does not: key 1 is red. -/
theorem evaluate_unrestricted_blueNotRed :
    (∃ set, blueNotRed.evaluate searchColours none = .ok set ∧ set.contains 1 = true) ∧
    ∃ set, (not blueNotRed).evaluate searchColours none = .ok set ∧ set.contains 1 = false := by
  obtain ⟨⟨set, hok, hset⟩, -⟩ :=
    evaluate_unrestricted searchColours blueNotRed answersLeaf_blueNotRed
  obtain ⟨⟨set', hok', hset'⟩, -⟩ :=
    evaluate_unrestricted searchColours (not blueNotRed) answersLeaf_blueNotRed
  refine ⟨⟨set, hok, (hset 1 (Nat.le_refl 1)).1.trans ?_⟩,
    ⟨set', hok', (hset' 1 (Nat.le_refl 1)).1.trans ?_⟩⟩ <;> decide

/-- Key 1 is red, so that it is not meant by the expression, and it is given back. -/
theorem not_evaluate_reads :
    ¬ ∀ (collect : String → Query → String → Except Failure KeyBits) (e : RelationalExpr),
      (∀ l ∈ e.leaves, AnswersLeaf collect l) → ∃ set, e.evaluate collect none = .ok set ∧
        ∀ key : JoinKey, 1 ≤ key → set.contains key = e.reads (isFound collect key) := by
  intro h
  obtain ⟨set, hok, hset⟩ := h searchColours blueNotRed answersLeaf_blueNotRed
  obtain ⟨set', hok', -, hset'⟩ :=
    evaluate_within_complement answersLeaf_blueNotRed none (by simp)
  obtain rfl : set' = set := Except.ok.inj (hok'.symm.trans hok)
  have hboth := (hset 1 (Nat.le_refl 1)).symm.trans (hset' 1 (Nat.le_refl 1))
  exact absurd hboth (by decide)

end RelationalExpr

end FederatedSearch
