import FederatedSearch.Proofs.Sort.Order

/-!
# The sort order in words

The comparison of sorted hits looks at one pair of keys after the other, reverses what it finds if an
order asks for it, and puts missing texts to one side in any case. Here the same order is given by what
puts one hit before another: at the first clause where the keys differ, the clause puts one key before
the other, and if there is no such clause the hits are in relevance order.

On hits whose keys fit the clauses the two are one, and the order leaves only a hit itself tied with it.

## Main definitions

* `SortClause.Puts` — a clause puts a key before another one
* `KeysPrecede` — the first clause that tells keys apart puts them in order
* `SortedHit.Precedes` — the order of sorted hits

## Main results

* `SortedHit.compareSorted_eq_lt_iff` — it is the order that sorted hits are compared in
* `SortedHit.isStrictTotalOrder_precedes` — it is a strict total order
* `SortedHit.precedes_of_missing` — where missing texts go
-/

namespace FederatedSearch

open Std

/-! ### One clause -/

/-- The relation, or under the descending order the opposite one. -/
def SortOrder.Directs {α : Type} (order : SortOrder) (less : α → α → Prop) (a b : α) : Prop :=
  match order with
  | .ascending => less a b
  | .descending => less b a

/-- The clause puts the first key before the second one. -/
inductive SortClause.Puts (c : SortClause) : SortKey → SortKey → Prop
  | texts {a b : String} (h : c.order.Directs (· < ·) a b) : Puts c (.text a) (.text b)
  | ints {a b : Int64} (h : c.order.Directs (· < ·) a.toInt b.toInt) : Puts c (.int a) (.int b)
  | doubles {a b : Binary64} (h : c.order.Directs (fun x y => x.compareTotal y = .lt) a b) :
      Puts c (.double a) (.double b)
  | missingFirst {b : String} (h : c.missing = .textFirst) : Puts c (.text none) (.text (some b))
  | missingLast {a : String} (h : c.missing ≠ .textFirst) : Puts c (.text (some a)) (.text none)

namespace SortKey

variable {order : SortOrder}

theorem orient_eq_lt_iff {α : Type} {compareBy : α → α → Ordering} [OrientedCmp compareBy]
    {less : α → α → Prop} (hless : ∀ x y, compareBy x y = .lt ↔ less x y) {a b : α} :
    orient order (compareBy a b) = .lt ↔ order.Directs less a b := by
  cases order with
  | ascending => exact hless a b
  | descending =>
    rw [orient, ← OrientedCmp.eq_swap]
    exact hless b a

theorem orient_eq_eq_iff {o : Ordering} : orient order o = .eq ↔ o = .eq := by
  cases order with
  | ascending => exact Iff.rfl
  | descending => exact Ordering.swap_eq_eq

theorem missingFirst_eq_lt_iff {missing : MissingValue} :
    missingFirst missing = .lt ↔ missing = .textFirst := by
  rw [missingFirst]
  split <;> simp_all

theorem swap_missingFirst_eq_lt_iff {missing : MissingValue} :
    (missingFirst missing).swap = .lt ↔ missing ≠ .textFirst := by
  rw [missingFirst]
  split <;> simp_all

end SortKey

namespace SortClause

variable {c : SortClause} {a b : SortKey}

/-- Keys in order, by the comparison and in words. -/
theorem compare_eq_lt_iff : c.compare a b = .lt ↔ c.Puts a b := by
  have htexts : ∀ a b : String, SortKey.orient c.order (Ord.compare a b) = .lt ↔
      c.order.Directs (· < ·) a b := fun a b => by
    refine SortKey.orient_eq_lt_iff fun x y => ?_
    exact compareOfLessAndEq_eq_lt
  have hints : ∀ a b : Int, SortKey.orient c.order (Ord.compare a b) = .lt ↔
      c.order.Directs (· < ·) a b := fun a b => by
    refine SortKey.orient_eq_lt_iff fun x y => ?_
    exact compare_lt_iff_lt
  have hdoubles : ∀ a b : Binary64, SortKey.orient c.order (a.compareTotal b) = .lt ↔
      c.order.Directs (fun x y => x.compareTotal y = .lt) a b := fun a b =>
    SortKey.orient_eq_lt_iff fun _ _ => Iff.rfl
  constructor
  · intro h
    rcases a with (_ | a) | a | a <;> rcases b with (_ | b) | b | b <;>
      simp only [SortClause.compare, SortKey.compareUnder, reduceCtorEq] at h
    · exact .missingFirst (SortKey.missingFirst_eq_lt_iff.mp h)
    · exact .missingLast (SortKey.swap_missingFirst_eq_lt_iff.mp h)
    · exact .texts ((htexts a b).mp h)
    · exact .ints ((hints a.toInt b.toInt).mp h)
    · exact .doubles ((hdoubles a b).mp h)
  · intro h
    cases h with
    | texts h => exact (htexts _ _).mpr h
    | ints h => exact (hints _ _).mpr h
    | doubles h => exact (hdoubles _ _).mpr h
    | missingFirst h => exact SortKey.missingFirst_eq_lt_iff.mpr h
    | missingLast h => exact SortKey.swap_missingFirst_eq_lt_iff.mpr h

/-- Only equal keys of one kind are tied. -/
theorem compare_eq_eq_iff (ha : c.reading.Admits a) (hb : c.reading.Admits b) :
    c.compare a b = .eq ↔ a = b := by
  have hmissing := SortKey.missingFirst_eq c.missing
  rw [SortClause.compare]
  generalize c.reading = r at ha hb
  rcases a with (_ | a) | a | a <;> rcases b with (_ | b) | b | b <;>
    first | (cases r <;> contradiction) | simp only [SortKey.compareUnder, SortKey.orient_eq_eq_iff]
  · rcases hmissing with h | h <;> simp [h]
  · rcases hmissing with h | h <;> simp [h]
  · rw [LawfulEqCmp.compare_eq_iff_eq, SortKey.text.injEq, Option.some.injEq]
  · rw [LawfulEqCmp.compare_eq_iff_eq, Int64.toInt_inj, SortKey.int.injEq]
  · rw [SortKey.double.injEq]
    exact ⟨Binary64.eq_of_compareTotal, fun h => h ▸ ReflCmp.compare_self⟩

end SortClause

/-! ### All clauses -/

/-- The first clause that tells the keys apart puts them in order. -/
inductive KeysPrecede : List SortClause → List SortKey → List SortKey → Prop
  | here {c : SortClause} {clauses : List SortClause} {a b : SortKey} {as bs : List SortKey}
      (h : c.Puts a b) : KeysPrecede (c :: clauses) (a :: as) (b :: bs)
  | later {c : SortClause} {clauses : List SortClause} {key : SortKey} {as bs : List SortKey}
      (h : KeysPrecede clauses as bs) : KeysPrecede (c :: clauses) (key :: as) (key :: bs)

section Keys

variable {clauses : List SortClause} {as bs : List SortKey}

theorem compareKeys_eq_eq_iff (has : Fits clauses as) (hbs : Fits clauses bs) :
    compareKeys clauses as bs = .eq ↔ as = bs := by
  induction has generalizing bs with
  | nil =>
    cases hbs
    simp [compareKeys]
  | cons ha _ ih =>
    cases hbs with
    | cons hb hbs =>
      rw [compareKeys, Ordering.then_eq_eq, SortClause.compare_eq_eq_iff ha hb, ih hbs,
        List.cons.injEq]

theorem compareKeys_eq_lt_iff (has : Fits clauses as) (hbs : Fits clauses bs) :
    compareKeys clauses as bs = .lt ↔ KeysPrecede clauses as bs := by
  induction has generalizing bs with
  | nil =>
    cases hbs
    exact iff_of_false (by simp [compareKeys]) nofun
  | @cons c a clauses as ha _ ih =>
    cases hbs with
    | @cons _ b _ bs hb hbs =>
      rw [compareKeys, Ordering.then_eq_lt, SortClause.compare_eq_eq_iff ha hb,
        SortClause.compare_eq_lt_iff, ih hbs]
      constructor
      · rintro (h | ⟨rfl, h⟩)
        · exact .here h
        · exact .later h
      · rintro (h | h)
        · exact .inl h
        · exact .inr ⟨rfl, h⟩

/-- Keys that are in order stay so behind keys that are shared. -/
theorem KeysPrecede.append {earlier : List SortClause} {shared : List SortKey}
    (hshared : shared.length = earlier.length) (h : KeysPrecede clauses as bs) :
    KeysPrecede (earlier ++ clauses) (shared ++ as) (shared ++ bs) := by
  induction earlier generalizing shared with
  | nil =>
    obtain rfl := List.eq_nil_of_length_eq_zero hshared
    exact h
  | cons c earlier ih =>
    obtain ⟨key, shared, rfl⟩ := List.exists_cons_of_length_eq_add_one hshared
    exact .later (ih (Nat.succ.inj hshared))

end Keys

namespace SortedHit

variable {clauses : List SortClause}

/-- The first hit comes before the second one: it does by the keys, or these are equal and it is more
relevant. -/
def Precedes (clauses : List SortClause) (x y : SortedHit) : Prop :=
  KeysPrecede clauses x.keys y.keys ∨ x.keys = y.keys ∧ x.hit.Outranks y.hit

section Fits

variable {x y z : SortedHit} (hx : Fits clauses x.keys) (hy : Fits clauses y.keys)
include hx hy

/-- Sorted hits in order, by the comparison and in words. -/
theorem compareSorted_eq_lt_iff : compareSorted clauses x y = .lt ↔ x.Precedes clauses y := by
  rw [compareSorted, Ordering.then_eq_lt, compareKeys_eq_lt_iff hx hy, compareKeys_eq_eq_iff hx hy,
    ← Hit.isBefore_iff, Hit.isBefore_iff_outranks, Precedes]

theorem compareSorted_eq_eq_iff : compareSorted clauses x y = .eq ↔ x = y := by
  rw [compareSorted, Ordering.then_eq_eq, compareKeys_eq_eq_iff hx hy]
  constructor
  · rintro ⟨hkeys, hhit⟩
    cases x
    cases y
    exact congrArg₂ SortedHit.mk (Hit.eq_of_compareRelevance hhit) hkeys
  · rintro rfl
    exact ⟨rfl, ReflCmp.compare_self⟩

/-- Of two hits one comes first. -/
theorem precedes_or (hne : x ≠ y) : x.Precedes clauses y ∨ y.Precedes clauses x := by
  rw [← compareSorted_eq_lt_iff hx hy, ← compareSorted_eq_lt_iff hy hx, compareSorted_swap y x,
    Ordering.swap_eq_lt]
  cases hcompare : compareSorted clauses x y with
  | lt => exact .inl rfl
  | gt => exact .inr rfl
  | eq => exact absurd ((compareSorted_eq_eq_iff hx hy).mp hcompare) hne

theorem Precedes.asymm (h : x.Precedes clauses y) : ¬ y.Precedes clauses x := by
  rw [← compareSorted_eq_lt_iff hx hy] at h
  rw [← compareSorted_eq_lt_iff hy hx, compareSorted_swap, h]
  exact Ordering.noConfusion

theorem Precedes.trans (hz : Fits clauses z.keys) (hxy : x.Precedes clauses y)
    (hyz : y.Precedes clauses z) : x.Precedes clauses z := by
  rw [← compareSorted_eq_lt_iff hx hy] at hxy
  rw [← compareSorted_eq_lt_iff hy hz] at hyz
  rw [← compareSorted_eq_lt_iff hx hz]
  exact @TransCmp.lt_trans _ _ transCmp_compareSorted ⟨x, hx⟩ ⟨y, hy⟩ ⟨z, hz⟩ hxy hyz

end Fits

/-- **The order of sorted hits** whose keys fit is a strict total order. -/
theorem isStrictTotalOrder_precedes (clauses : List SortClause) :
    IsStrictTotalOrder { x : SortedHit // Fits clauses x.keys } fun x y => x.1.Precedes clauses y.1 where
  trichotomous x y hxy hyx := by
    by_contra hne
    exact (precedes_or x.2 y.2 fun heq => hne (Subtype.ext heq)).elim hxy hyx
  irrefl x h := Precedes.asymm x.2 x.2 h h
  trans x y z := Precedes.trans x.2 y.2 z.2

/-- **Missing texts** stay on their side of all texts among hits that are tied on the clauses before,
whatever the order is. -/
theorem precedes_of_missing {earlier later : List SortClause} {c : SortClause}
    {shared as bs : List SortKey}
    (hshared : shared.length = earlier.length) {text : String} {x y : SortedHit}
    (hx : x.keys = shared ++ .text none :: as) (hy : y.keys = shared ++ .text (some text) :: bs) :
    if c.missing = .textFirst then x.Precedes (earlier ++ c :: later) y
    else y.Precedes (earlier ++ c :: later) x := by
  rw [Precedes, Precedes, hx, hy]
  split
  · exact .inl (.append hshared (.here (.missingFirst ‹_›)))
  · exact .inl (.append hshared (.here (.missingLast ‹_›)))

end SortedHit

end FederatedSearch
