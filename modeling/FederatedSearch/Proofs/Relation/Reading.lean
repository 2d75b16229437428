import FederatedSearch.Relation.Expr
import FederatedSearch.Proofs.Keys.Algebra

/-!
# What a relational expression evaluates to

A relational expression is meant to denote the keys at which its Boolean reading holds. The
evaluation gets there by way of restrictions: the right side of a conjunction is only asked about
the keys that its left side leaves over. This module says what comes out.

## Restricted sets

Under a restriction the evaluation may come back with one of two kinds of sets. A set *inside* the
restriction holds the keys of the restriction at which the expression holds. A set that *spills*
holds those and everything outside the restriction besides; negation turns one kind into the other.
Either way the set is right about the keys of the restriction (`within`).

Under a plain restriction the two kinds can be told apart by the complement flag, and the
conjunction cuts a complement back. Under a complement they cannot: negating a union that was cut
back gives a plain set that spills. A conjunction whose left side comes out as a complement takes
such a set from its right side as it is, and so gets an implication: everything at which the left
side does not hold, too. `effective` is the expression with these conjunctions replaced, and the
evaluation denotes its reading, for every expression.

## Main definitions

* `RelationalExpr.isComplement`, `spills` — the set that comes out when nothing or a complement is
  the restriction
* `RelationalExpr.effective` — the expression whose Boolean reading is computed
* `RelationalExpr.overreaches` — whether that is another expression
* `AnswersLeaf` — what is asked of a source of keys

## Main results

* `evaluate_and_eq`, `evaluate_or_eq` — what is asked of the two sides, and what comes of their answers
* `evaluate_within_plain` — the plain restriction: every expression is evaluated to its reading
* `evaluate_within_complement` — the complement, or none: to the reading of `effective`
* `exists_reads_effective_ne` — what `overreaches` finds does make a difference
-/

namespace FederatedSearch

/-! ### Sources -/

/-- A source answers a leaf, and answers it right when it is restricted to some keys. -/
structure AnswersLeaf (collect : String → Query → String → Except Failure KeyBits)
    (leaf : String × Query × String) : Prop where
  /-- Unrestricted, there is an answer. -/
  found : ∃ bits, collect leaf.1 leaf.2.1 leaf.2.2 = .ok bits
  /-- Restricted, the answer is the part of it that is in the restriction. -/
  restricted : ∀ {bits}, collect leaf.1 leaf.2.1 leaf.2.2 = .ok bits → ∀ keys : KeySet,
    ∃ kept, collect leaf.1 (leaf.2.1.withFilter (.joinKeys leaf.2.2 keys)) leaf.2.2 = .ok kept ∧
      ∀ key : JoinKey, 1 ≤ key → kept.contains key = (bits.contains key && keys.contains key)

/-- Whether a source finds a key for a leaf. -/
def isFound (collect : String → Query → String → Except Failure KeyBits) (key : JoinKey)
    (core : String) (query : Query) (field : String) : Bool :=
  match collect core query field with
  | .ok bits => bits.contains key
  | .error _ => false

/-- Membership in a set that was found under a restriction: inside it, or spilling over. -/
def within (allowed value spills : Bool) : Bool :=
  if spills then !allowed || value else allowed && value

theorem within_true (value spills : Bool) : within true value spills = value := by
  cases spills <;> rfl

theorem and_within (allowed value spills : Bool) :
    (allowed && within allowed value spills) = (allowed && value) := by
  cases allowed <;> cases spills <;> rfl

theorem or_within (allowed value other spills more : Bool) :
    (within allowed value spills || within allowed other more) =
      within allowed (value || other) (spills || more) := by
  cases allowed <;> cases spills <;> cases more <;> simp [within]

/-- A set under a restriction that is itself a set within another one. -/
theorem within_within (allowed value other spills : Bool) :
    within (allowed && value) other spills =
      within allowed (if spills then !value || other else value && other) spills := by
  cases allowed <;> cases value <;> cases spills <;> rfl

/-- A complement is cut back to some keys, a plain set is left as it is. -/
def KeySet.cutBack (keys set : KeySet) : KeySet := if set.inverted then keys.meet set else set

theorem KeySet.inverted_cutBack (keys set : KeySet) :
    (keys.cutBack set).inverted = (keys.inverted && set.inverted) := by
  rw [cutBack]
  split
  · exact inverted_meet keys set
  · rename_i hplain
    rw [Bool.eq_false_iff.mpr hplain, Bool.and_false]

theorem KeySet.contains_meet_of_within {keys set : KeySet} {key : JoinKey} (hkey : 1 ≤ key)
    {value spills : Bool} (h : set.contains key = within (keys.contains key) value spills) :
    (set.meet keys).contains key = (keys.contains key && value) := by
  have h0 : key ≠ noKey := Nat.one_le_iff_ne_zero.mp hkey
  rw [contains_meet _ (.inl h0), h, Bool.and_comm]
  exact and_within _ _ _

/-- A complement does not spill any more once it is cut back. -/
theorem KeySet.contains_cutBack {keys set : KeySet} {key : JoinKey} (hkey : 1 ≤ key)
    {value spills : Bool} (h : set.contains key = within (keys.contains key) value spills) :
    (keys.cutBack set).contains key =
      within (keys.contains key) value (!set.inverted && spills) := by
  have h0 : key ≠ noKey := Nat.one_le_iff_ne_zero.mp hkey
  rw [cutBack]
  cases set.inverted with
  | true =>
    rw [if_pos rfl, contains_meet _ (.inl h0), h, and_within]
    rfl
  | false => exact h

theorem KeySet.Proper.cutBack {keys set : KeySet} (hkeys : keys.Proper) (hset : set.Proper) :
    (keys.cutBack set).Proper := by
  rw [KeySet.cutBack]
  split
  · exact hkeys.meet hset
  · exact hset

section Restriction

variable {restriction : Option KeySet} {set : KeySet} {key : JoinKey} (hkey : 1 ≤ key)
  {value spills : Bool}

theorem KeySet.Proper.allowed (hset : set.Proper) (hres : ∀ keys ∈ restriction, keys.Proper) :
    (restriction.elim set set.meet).Proper := by
  cases restriction with
  | none => exact hset
  | some keys => exact hset.meet (hres keys rfl)

theorem KeySet.Proper.elim_cutBack (hset : set.Proper)
    (hres : ∀ keys ∈ restriction, keys.Proper) :
    (restriction.elim set (·.cutBack set)).Proper := by
  cases restriction with
  | none => exact hset
  | some keys => exact (hres keys rfl).cutBack hset

include hkey in
/-- What the left side of a conjunction leaves for the right side. -/
theorem KeySet.contains_allowed
    (h : set.contains key = within (restriction.all (·.contains key)) value spills) :
    (restriction.elim set set.meet).contains key = (restriction.all (·.contains key) && value) := by
  cases restriction with
  | none => exact h.trans (within_true _ _)
  | some keys => exact contains_meet_of_within hkey h

include hkey in
/-- What both sides of a disjunction come to. -/
theorem KeySet.contains_elim_cutBack
    (h : set.contains key = within (restriction.all (·.contains key)) value spills) :
    (restriction.elim set (·.cutBack set)).contains key =
      within (restriction.all (·.contains key)) value (!set.inverted && spills) := by
  cases restriction with
  | none => exact h.trans ((within_true _ _).trans (within_true _ _).symm)
  | some keys => exact contains_cutBack hkey h

variable (hres : ∀ keys ∈ restriction, keys.inverted = true)
include hres

theorem KeySet.inverted_allowed : (restriction.elim set set.meet).inverted = set.inverted := by
  cases restriction with
  | none => rfl
  | some keys => simp [hres keys rfl]

theorem KeySet.inverted_elim_cutBack :
    (restriction.elim set (·.cutBack set)).inverted = set.inverted := by
  cases restriction with
  | none => rfl
  | some keys =>
    show (keys.cutBack set).inverted = set.inverted
    rw [inverted_cutBack, hres keys rfl, Bool.true_and]

end Restriction

namespace RelationalExpr

/-! ### The shape of a result -/

/-- The leaves from left to right. -/
def leaves : RelationalExpr → List (String × Query × String)
  | leaf core query field => [(core, query, field)]
  | and first second => first.leaves ++ second.leaves
  | or first second => first.leaves ++ second.leaves
  | not inner => inner.leaves

/-- Whether the set of the expression is a complement, if the restriction is one or there is none. -/
def isComplement : RelationalExpr → Bool
  | leaf _ _ _ => false
  | and first second => first.isComplement && second.isComplement
  | or first second => first.isComplement || second.isComplement
  | not inner => !inner.isComplement

/-- Whether the set of the expression spills over the restriction, if that is a complement. A union
that is a complement is cut back, and so is a conjunction, unless it takes a plain set from its
right side. -/
def spills : RelationalExpr → Bool
  | leaf _ _ _ => false
  | and first second => first.isComplement && !second.isComplement && second.spills
  | or first second =>
    !(first.isComplement || second.isComplement) && (first.spills || second.spills)
  | not inner => !inner.spills

/-- The expression whose Boolean reading is computed. A conjunction takes a plain set that spills
over what its left side leaves for granted. On the right of a plain set all is as it should be. -/
def effective : RelationalExpr → RelationalExpr
  | leaf core query field => leaf core query field
  | and first second =>
    if first.isComplement then
      if !second.isComplement && second.spills then or (not first.effective) second.effective
      else and first.effective second.effective
    else and first.effective second
  | or first second => or first.effective second.effective
  | not inner => not inner.effective

/-- Whether some conjunction of the expression is not computed as one. -/
def overreaches : RelationalExpr → Bool
  | leaf _ _ _ => false
  | and first second =>
    first.overreaches || (first.isComplement &&
      (second.overreaches || (!second.isComplement && second.spills)))
  | or first second => first.overreaches || second.overreaches
  | not inner => inner.overreaches

theorem effective_eq_self {e : RelationalExpr} (h : e.overreaches = false) : e.effective = e := by
  induction e with
  | leaf core query field => rfl
  | and first second ihf ihs =>
    simp only [overreaches, Bool.or_eq_false_iff, Bool.and_eq_false_iff] at h
    obtain ⟨hf, hs⟩ := h
    rw [effective, ihf hf]
    split
    · rename_i hc
      obtain ⟨hover, hspill⟩ := hs.resolve_left (by simp [hc])
      have hplain : (!second.isComplement && second.spills) = false := by
        rw [Bool.and_eq_false_iff]
        exact hspill
      rw [if_neg (by simp [hplain]), ihs hover]
    · rfl
  | or first second ihf ihs =>
    simp only [overreaches, Bool.or_eq_false_iff] at h
    rw [effective, ihf h.1, ihs h.2]
  | not inner ih => rw [effective, ih h]

/-! ### Evaluation under a restriction -/

section Steps

variable {m : Type → Type} [Monad m] {collect : String → Query → String → m KeyBits}
  {first second : RelationalExpr} {restriction : Option KeySet}

/-- The right side of a conjunction is asked about what its left side leaves over of the restriction,
and a complement is cut back to that. -/
theorem evaluate_and_eq :
    (and first second).evaluate collect restriction = do
      let left ← first.evaluate collect restriction
      let right ← second.evaluate collect (some (restriction.elim left left.meet))
      return (restriction.elim left left.meet).cutBack right := by
  cases restriction <;> rfl

/-- Both sides of a disjunction are asked about the restriction, and their union is cut back to it. -/
theorem evaluate_or_eq :
    (or first second).evaluate collect restriction = do
      let left ← first.evaluate collect restriction
      let right ← second.evaluate collect restriction
      return restriction.elim (left.union right) (·.cutBack (left.union right)) := by
  cases restriction <;> rfl

end Steps

section Evaluation

variable {collect : String → Query → String → Except Failure KeyBits}

theorem evaluate_leaf_some {core field : String} {query : Query}
    (h : AnswersLeaf collect (core, query, field)) (keys : KeySet) :
    ∃ kept, (leaf core query field).evaluate collect (some keys) = .ok (.plain kept) ∧
      ∀ key : JoinKey, 1 ≤ key →
        kept.contains key = (keys.contains key && isFound collect key core query field) := by
  obtain ⟨bits, hbits⟩ := h.found
  obtain ⟨kept, hkept, hcontains⟩ := h.restricted hbits keys
  refine ⟨kept, by simp only [evaluate, hkept]; rfl, fun key hkey => ?_⟩
  rw [hcontains key hkey, isFound, hbits, Bool.and_comm]

theorem evaluate_leaf_none {core field : String} {query : Query}
    (h : AnswersLeaf collect (core, query, field)) :
    ∃ bits, (leaf core query field).evaluate collect none = .ok (.plain bits) ∧
      ∀ key : Nat, bits.contains key = isFound collect key core query field := by
  obtain ⟨bits, hbits⟩ := h.found
  refine ⟨bits, by simp only [evaluate, hbits]; rfl, fun key => ?_⟩
  rw [isFound, hbits]

/-- The answer of a conjunction, from the answers of its sides. -/
theorem evaluate_and {first second : RelationalExpr} {restriction : Option KeySet}
    {left right : KeySet} (hl : first.evaluate collect restriction = .ok left)
    (hr : second.evaluate collect (some (restriction.elim left left.meet)) = .ok right) :
    (and first second).evaluate collect restriction =
      .ok ((restriction.elim left left.meet).cutBack right) := by
  rw [evaluate_and_eq, hl]
  show (second.evaluate collect _ >>= _) = _
  rw [hr]
  rfl

/-- The answer of a disjunction, from the answers of its sides. -/
theorem evaluate_or {first second : RelationalExpr} {restriction : Option KeySet}
    {left right : KeySet} (hl : first.evaluate collect restriction = .ok left)
    (hr : second.evaluate collect restriction = .ok right) :
    (or first second).evaluate collect restriction =
      .ok (restriction.elim (left.union right) (·.cutBack (left.union right))) := by
  rw [evaluate_or_eq, hl, hr]
  rfl

theorem evaluate_not {inner : RelationalExpr} {restriction : Option KeySet} {set : KeySet}
    (h : inner.evaluate collect restriction = .ok set) :
    (not inner).evaluate collect restriction = .ok set.negate := by
  simp only [evaluate, h]
  rfl

/-- **Inside a plain restriction** an expression is evaluated to its Boolean reading. A plain result
lies inside the restriction, a complement spills. -/
theorem evaluate_within_plain {e : RelationalExpr} (h : ∀ l ∈ e.leaves, AnswersLeaf collect l)
    {keys : KeySet} (hkeys : keys.inverted = false) :
    ∃ set, e.evaluate collect (some keys) = .ok set ∧ ∀ key : JoinKey, 1 ≤ key →
      set.contains key = within (keys.contains key) (e.reads (isFound collect key)) set.inverted := by
  induction e generalizing keys with
  | leaf core query field =>
    obtain ⟨kept, hok, hkept⟩ := evaluate_leaf_some (h _ (List.mem_singleton_self _)) keys
    refine ⟨_, hok, fun key hkey => ?_⟩
    rw [KeySet.contains_plain, hkept key hkey]
    rfl
  | and first second ihf ihs =>
    obtain ⟨left, hl, hleft⟩ := ihf (fun l hm => h l (List.mem_append_left _ hm)) hkeys
    have hallowed : (left.meet keys).inverted = false := by
      rw [KeySet.inverted_meet, hkeys, Bool.and_false]
    obtain ⟨right, hr, hright⟩ := ihs (fun l hm => h l (List.mem_append_right _ hm)) hallowed
    refine ⟨_, evaluate_and hl hr, fun key hkey => ?_⟩
    have hmeet : (left.meet keys).contains key =
        (keys.contains key && first.reads (isFound collect key)) :=
      KeySet.contains_meet_of_within hkey (hleft key hkey)
    show ((left.meet keys).cutBack right).contains key =
      within _ _ ((left.meet keys).cutBack right).inverted
    rw [KeySet.contains_cutBack hkey (hright key hkey), KeySet.inverted_cutBack, hallowed, hmeet,
      Bool.not_and_self, Bool.false_and, within_within]
    rfl
  | or first second ihf ihs =>
    obtain ⟨left, hl, hleft⟩ := ihf (fun l hm => h l (List.mem_append_left _ hm)) hkeys
    obtain ⟨right, hr, hright⟩ := ihs (fun l hm => h l (List.mem_append_right _ hm)) hkeys
    refine ⟨_, evaluate_or hl hr, fun key hkey => ?_⟩
    have hunion : (left.union right).contains key = within (keys.contains key)
        ((or first second).reads (isFound collect key)) (left.union right).inverted := by
      rw [KeySet.contains_union, hleft key hkey, hright key hkey, or_within, KeySet.inverted_union]
      rfl
    show (keys.cutBack (left.union right)).contains key =
      within _ _ (keys.cutBack (left.union right)).inverted
    rw [KeySet.contains_cutBack hkey hunion, KeySet.inverted_cutBack, hkeys, Bool.not_and_self,
      Bool.false_and]
  | not inner ih =>
    obtain ⟨set, hok, hset⟩ := ih h hkeys
    refine ⟨_, evaluate_not hok, fun key hkey => ?_⟩
    cases hi : set.inverted <;> simp [hset key hkey, hi, within, reads]

/-- **Inside a complement, or without a restriction,** an expression is evaluated to the reading of
its `effective` form. Whether the result is a complement and whether it spills is decided by the
expression alone. -/
theorem evaluate_within_complement {e : RelationalExpr}
    (h : ∀ l ∈ e.leaves, AnswersLeaf collect l) (restriction : Option KeySet)
    (hres : ∀ keys ∈ restriction, keys.inverted = true) :
    ∃ set, e.evaluate collect restriction = .ok set ∧ set.inverted = e.isComplement ∧
      ∀ key : JoinKey, 1 ≤ key → set.contains key =
        within (restriction.all (·.contains key)) (e.effective.reads (isFound collect key)) e.spills := by
  induction e generalizing restriction with
  | leaf core query field =>
    have hleaf := h _ (List.mem_singleton_self _)
    cases restriction with
    | none =>
      obtain ⟨bits, hok, hbits⟩ := evaluate_leaf_none hleaf
      exact ⟨_, hok, rfl, fun key _ => by simp [hbits, within, effective, reads, spills]⟩
    | some keys =>
      obtain ⟨kept, hok, hkept⟩ := evaluate_leaf_some hleaf keys
      exact ⟨_, hok, rfl, fun key hkey => by simp [hkept key hkey, within, effective, reads, spills]⟩
  | and first second ihf ihs =>
    obtain ⟨left, hl, hli, hleft⟩ := ihf (fun l hm => h l (List.mem_append_left _ hm)) restriction hres
    have hsecond : ∀ l ∈ second.leaves, AnswersLeaf collect l :=
      fun l hm => h l (List.mem_append_right _ hm)
    have hallowed : (restriction.elim left left.meet).inverted = first.isComplement :=
      (KeySet.inverted_allowed hres).trans hli
    have hmeet : ∀ key : JoinKey, 1 ≤ key → (restriction.elim left left.meet).contains key =
        (restriction.all (·.contains key) && first.effective.reads (isFound collect key)) :=
      fun key hkey => KeySet.contains_allowed hkey (hleft key hkey)
    cases hc : first.isComplement with
    | true =>
      obtain ⟨right, hr, hri, hright⟩ := ihs hsecond
        (some (restriction.elim left left.meet)) (by simpa using hallowed.trans hc)
      refine ⟨_, evaluate_and hl hr, ?_, fun key hkey => ?_⟩
      · rw [KeySet.inverted_cutBack, hallowed, hri, isComplement]
      · rw [KeySet.contains_cutBack hkey (hright key hkey), hmeet key hkey, hri, within_within,
          effective, if_pos hc, spills, hc, Bool.true_and]
        split <;> rfl
    | false =>
      obtain ⟨right, hr, hright⟩ := evaluate_within_plain hsecond (hallowed.trans hc)
      refine ⟨_, evaluate_and hl hr, ?_, fun key hkey => ?_⟩
      · rw [KeySet.inverted_cutBack, hallowed, hc, isComplement, hc, Bool.false_and, Bool.false_and]
      · rw [KeySet.contains_cutBack hkey (hright key hkey), hmeet key hkey, Bool.not_and_self,
          within_within, effective, hc, spills, hc]
        rfl
  | or first second ihf ihs =>
    obtain ⟨left, hl, hli, hleft⟩ := ihf (fun l hm => h l (List.mem_append_left _ hm)) restriction hres
    obtain ⟨right, hr, hri, hright⟩ := ihs (fun l hm => h l (List.mem_append_right _ hm)) restriction hres
    have hinverted : (left.union right).inverted = (or first second).isComplement := by
      rw [KeySet.inverted_union, hli, hri, isComplement]
    have hunion : ∀ key : JoinKey, 1 ≤ key → (left.union right).contains key =
        within (restriction.all (·.contains key)) ((or first second).effective.reads (isFound collect key))
          (first.spills || second.spills) := by
      intro key hkey
      rw [KeySet.contains_union, hleft key hkey, hright key hkey, or_within]
      rfl
    refine ⟨_, evaluate_or hl hr, (KeySet.inverted_elim_cutBack hres).trans hinverted,
      fun key hkey => ?_⟩
    rw [KeySet.contains_elim_cutBack hkey (hunion key hkey), hinverted]
    rfl
  | not inner ih =>
    obtain ⟨set, hok, hi, hset⟩ := ih h restriction hres
    refine ⟨_, evaluate_not hok, by simp [hi, isComplement], fun key hkey => ?_⟩
    cases hs : inner.spills <;> simp [hset key hkey, hs, within, effective, reads, spills]

end Evaluation

/-! ### The condition is exact

If the leaves are pairwise different, the readings of an expression and of its effective form can be
told apart by what the leaves hold, as soon as the expression overreaches. -/

section Assignments

/-- What the leaves hold, at some key. -/
private abbrev Assignment := String → Query → String → Bool

open Classical in
/-- One assignment on some leaves and another one on all others. -/
private noncomputable def onLeaves (leaves : List (String × Query × String)) (f g : Assignment) :
    Assignment :=
  fun core query field => if (core, query, field) ∈ leaves then f core query field
    else g core query field

theorem leaves_effective (e : RelationalExpr) : e.effective.leaves = e.leaves := by
  induction e with
  | leaf core query field => rfl
  | and first second ihf ihs =>
    rw [effective]
    split
    · split <;> simp [leaves, ihf, ihs]
    · simp [leaves, ihf]
  | or first second ihf ihs => simp [effective, leaves, ihf, ihs]
  | not inner ih => simpa [effective, leaves] using ih

/-- A reading depends on the leaves of the expression alone. -/
theorem reads_congr {e : RelationalExpr} {f g : Assignment}
    (h : ∀ l ∈ e.leaves, f l.1 l.2.1 l.2.2 = g l.1 l.2.1 l.2.2) : e.reads f = e.reads g := by
  induction e with
  | leaf core query field => exact h _ (List.mem_singleton_self _)
  | and first second ihf ihs =>
    rw [reads, reads, ihf fun l hm => h l (List.mem_append_left _ hm),
      ihs fun l hm => h l (List.mem_append_right _ hm)]
  | or first second ihf ihs =>
    rw [reads, reads, ihf fun l hm => h l (List.mem_append_left _ hm),
      ihs fun l hm => h l (List.mem_append_right _ hm)]
  | not inner ih => rw [reads, reads, ih h]

/-- Both readings of an expression, as they are under an assignment. -/
private def readings (e : RelationalExpr) (f : Assignment) : Bool × Bool :=
  (e.effective.reads f, e.reads f)

private theorem readings_congr {e : RelationalExpr} {f g : Assignment}
    (h : ∀ l ∈ e.leaves, f l.1 l.2.1 l.2.2 = g l.1 l.2.1 l.2.2) : e.readings f = e.readings g := by
  rw [readings, readings, reads_congr h, reads_congr (e := e.effective) (by rwa [leaves_effective])]

/-- Expressions that share no leaf can be given their readings independently. -/
private theorem exists_readings {a b : RelationalExpr} (h : (a.leaves ++ b.leaves).Nodup)
    {p q : Bool × Bool} (ha : ∃ f, a.readings f = p) (hb : ∃ g, b.readings g = q) :
    ∃ k, a.readings k = p ∧ b.readings k = q := by
  obtain ⟨f, rfl⟩ := ha
  obtain ⟨g, rfl⟩ := hb
  refine ⟨onLeaves a.leaves f g, readings_congr fun l hm => ?_, readings_congr fun l hm => ?_⟩
  · exact if_pos hm
  · exact if_neg fun hl => (List.nodup_append.mp h).2.2 l hl l hm rfl

/-- Both readings can be made true together, and false together. -/
private theorem exists_readings_eq {e : RelationalExpr} (h : e.leaves.Nodup) (b : Bool) :
    ∃ f, e.readings f = (b, b) := by
  induction e generalizing b with
  | leaf core query field => exact ⟨fun _ _ _ => b, rfl⟩
  | and first second ihf ihs =>
    obtain ⟨k, hf, hs⟩ := exists_readings h (ihf (List.nodup_append.mp h).1 true)
      (ihs (List.nodup_append.mp h).2.1 b)
    simp only [readings, Prod.mk.injEq] at hf hs
    refine ⟨k, ?_⟩
    rw [readings, effective]
    split
    · split <;> simp [reads, hf, hs]
    · simp [reads, hf, hs]
  | or first second ihf ihs =>
    obtain ⟨k, hf, hs⟩ := exists_readings h (ihf (List.nodup_append.mp h).1 b)
      (ihs (List.nodup_append.mp h).2.1 b)
    simp only [readings, Prod.mk.injEq] at hf hs
    exact ⟨k, by simp [readings, effective, reads, hf, hs]⟩
  | not inner ih =>
    obtain ⟨f, hf⟩ := ih h (!b)
    simp only [readings, Prod.mk.injEq] at hf
    exact ⟨f, by simp [readings, effective, reads, hf]⟩

/-- Where the readings of an expression differ, both readings of another one can be as wanted. -/
private theorem exists_reads_ne_beside {a b : RelationalExpr} (h : (a.leaves ++ b.leaves).Nodup)
    (hne : ∃ f, a.effective.reads f ≠ a.reads f) (v : Bool) :
    ∃ k, a.effective.reads k ≠ a.reads k ∧ b.effective.reads k = v ∧ b.reads k = v := by
  obtain ⟨f, hf⟩ := hne
  obtain ⟨k, ha, hb⟩ := exists_readings h ⟨f, rfl⟩
    (exists_readings_eq (List.nodup_append.mp h).2.1 v)
  simp only [readings, Prod.mk.injEq] at ha hb
  exact ⟨k, by rwa [ha.1, ha.2], hb⟩

/-- An expression that overreaches, with pairwise different leaves, is not computed as it reads. -/
theorem exists_reads_effective_ne {e : RelationalExpr} (hnodup : e.leaves.Nodup)
    (h : e.overreaches = true) :
    ∃ holds : String → Query → String → Bool, e.effective.reads holds ≠ e.reads holds := by
  induction e with
  | leaf core query field => simp [overreaches] at h
  | and first second ihf ihs =>
    have hfirst := (List.nodup_append.mp hnodup).1
    have hsecond := (List.nodup_append.mp hnodup).2.1
    by_cases hover : first.isComplement = true ∧ (!second.isComplement && second.spills) = true
    · -- the left side fails: an implication holds, a conjunction does not
      obtain ⟨f, hf⟩ := exists_readings_eq hfirst false
      simp only [readings, Prod.mk.injEq] at hf
      exact ⟨f, by simp [effective, hover.1, hover.2, reads, hf]⟩
    · have heff : (and first second).effective = and first.effective
          (if first.isComplement then second.effective else second) := by
        rw [effective]
        split
        · rename_i hc
          rw [if_neg fun hs => hover ⟨hc, hs⟩]
        · rfl
      simp only [overreaches, Bool.or_eq_true, Bool.and_eq_true] at h
      rcases h with h | ⟨hc, h⟩
      · -- the left side differs, the right side holds either way
        obtain ⟨k, hne, hs, hs'⟩ := exists_reads_ne_beside hnodup (ihf hfirst h) true
        refine ⟨k, ?_⟩
        rw [heff, reads, reads, hs']
        split <;> simpa [hs, hs'] using hne
      · -- the right side differs, the left side holds either way
        have hs : second.overreaches = true :=
          h.resolve_right fun hs => hover ⟨hc, by simpa using hs⟩
        obtain ⟨k, hne, hf, hf'⟩ := exists_reads_ne_beside
          (List.perm_append_comm.nodup hnodup) (ihs hsecond hs) true
        refine ⟨k, ?_⟩
        rw [heff, if_pos hc, reads, reads, hf, hf']
        simpa using hne
  | or first second ihf ihs =>
    have hfirst := (List.nodup_append.mp hnodup).1
    have hsecond := (List.nodup_append.mp hnodup).2.1
    simp only [overreaches, Bool.or_eq_true] at h
    rcases h with h | h
    · obtain ⟨k, hne, hs⟩ := exists_reads_ne_beside hnodup (ihf hfirst h) false
      exact ⟨k, by simpa [effective, reads, hs] using hne⟩
    · obtain ⟨k, hne, hf⟩ := exists_reads_ne_beside
        (List.perm_append_comm.nodup hnodup) (ihs hsecond h) false
      exact ⟨k, by simpa [effective, reads, hf] using hne⟩
  | not inner ih =>
    obtain ⟨f, hf⟩ := ih hnodup h
    exact ⟨f, by simpa [effective, reads] using hf⟩

end Assignments

end RelationalExpr

end FederatedSearch
