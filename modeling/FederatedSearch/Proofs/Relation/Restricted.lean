import FederatedSearch.Proofs.Act.Outcome
import FederatedSearch.Proofs.Keys.Made
import FederatedSearch.Proofs.Relation.Unrestricted

/-!
# Relational expressions under a plain restriction

An expression that is evaluated under a plain set of keys is right about the keys of that set, however
it is nested. This holds of the expressions that overreach without a restriction, too: a conjunction
hands on what its left side and the restriction have in common, which is plain again, and so a set that
spills is always a complement and is cut back.

Outside the restriction the complement flag decides. A plain set has no key there, and a complement has
all of them. Key 0 is outside of every plain set, and it follows the flag because the bits of all sets
on the way keep it clear.

## Main results

* `evaluate_proper` — key 0 stays clear
* `evaluate_restricted` — what an expression is evaluated to under a plain restriction
-/

namespace FederatedSearch

namespace RelationalExpr

variable {collect : String → Query → String → Except Failure KeyBits}

/-- **Key 0 stays clear** in the bits of what an expression is evaluated to, if it does in those that
the source gives and in those of the restriction. -/
theorem evaluate_proper (hsource : ∀ {core query field bits},
      collect core query field = .ok bits → bits.Proper)
    {e : RelationalExpr} {restriction : Option KeySet} (hres : ∀ keys ∈ restriction, keys.Proper)
    {set : KeySet} (h : e.evaluate collect restriction = .ok set) : set.Proper := by
  induction e generalizing restriction set with
  | leaf core query field =>
    obtain ⟨bits, hbits, h⟩ := bind_eq_ok.mp h
    obtain rfl := Except.ok.inj h
    exact hsource hbits
  | and first second ihf ihs =>
    rw [evaluate_and_eq] at h
    obtain ⟨left, hleft, h⟩ := bind_eq_ok.mp h
    obtain ⟨right, hright, h⟩ := bind_eq_ok.mp h
    obtain rfl := Except.ok.inj h
    have hallowed := (ihf hres hleft).allowed hres
    exact hallowed.cutBack (ihs (fun keys hkeys => Option.some.inj hkeys ▸ hallowed) hright)
  | or first second ihf ihs =>
    rw [evaluate_or_eq] at h
    obtain ⟨left, hleft, h⟩ := bind_eq_ok.mp h
    obtain ⟨right, hright, h⟩ := bind_eq_ok.mp h
    obtain rfl := Except.ok.inj h
    exact ((ihf hres hleft).union (ihs hres hright)).elim_cutBack hres
  | not inner ih =>
    obtain ⟨found, hfound, h⟩ := bind_eq_ok.mp h
    obtain rfl := Except.ok.inj h
    exact (ih hres hfound).negate

/-- **An expression under a plain restriction** is evaluated, by every source that answers its leaves,
to a set that holds those keys of the restriction at which the expression reads true. Of the other keys
it holds none if it is plain and all if it is a complement; so it does of key 0, whenever the source
and the restriction were made by the operations on bitsets. -/
theorem evaluate_restricted (collect : String → Query → String → Except Failure KeyBits)
    (e : RelationalExpr) (h : ∀ l ∈ e.leaves, AnswersLeaf collect l) {keys : KeySet}
    (hplain : keys.inverted = false) :
    ∃ set, e.evaluate collect (some keys) = .ok set ∧
      (∀ key : JoinKey, 1 ≤ key → keys.contains key = true →
        set.contains key = e.reads (isFound collect key)) ∧
      (set.inverted = false → ∀ key : JoinKey, 1 ≤ key → keys.contains key = false →
        set.contains key = false) ∧
      (set.inverted = true → ∀ key : JoinKey, 1 ≤ key → keys.contains key = false →
        set.contains key = true) ∧
      ((∀ {core query field bits}, collect core query field = .ok bits → bits.Made) →
        keys.bits.Made → keys.contains noKey = false ∧ set.contains noKey = set.inverted) := by
  obtain ⟨set, hok, hset⟩ := evaluate_within_plain h hplain
  refine ⟨set, hok, fun key hkey hmem => ?_, fun hi key hkey hmem => ?_, fun hi key hkey hmem => ?_,
    fun hsource hkeys => ?_⟩
  · rw [hset key hkey, hmem, within_true]
  · rw [hset key hkey, hmem, hi]
    rfl
  · rw [hset key hkey, hmem, hi]
    rfl
  · have hproper : keys.Proper := hkeys.proper
    refine ⟨(KeySet.contains_noKey hproper).trans hplain, KeySet.contains_noKey ?_⟩
    refine evaluate_proper (fun hbits => (hsource hbits).proper) (fun other hother => ?_) hok
    exact Option.some.inj hother ▸ hproper

/-- Of the red and the blue document only the blue one is meant, whose expression overreaches without
a restriction. The green document, with key 3, was left out. -/
theorem evaluate_restricted_blueNotRed :
    let keys := KeySet.plain ((KeyBits.empty.set 1).set 2)
    keys.inverted = false ∧ (∀ l ∈ blueNotRed.leaves, AnswersLeaf searchColours l) ∧
      keys.bits.Made ∧ ∃ set, blueNotRed.evaluate searchColours (some keys) = .ok set ∧
        set.contains 1 = false ∧ set.contains 2 = true ∧ set.contains 3 = set.inverted ∧
        set.contains noKey = set.inverted := by
  intro keys
  have hfirst : KeyBits.empty.insert? 1 = .ok (KeyBits.empty.set 1, true) :=
    KeyBits.insert?_eq_ok (by decide) (by decide)
  have hsecond : (KeyBits.empty.set 1).insert? 2 = .ok ((KeyBits.empty.set 1).set 2, true) := by
    rw [KeyBits.insert?_eq_ok (by decide) (by decide), KeyBits.contains_set, KeyBits.contains_empty]
    rfl
  have hmade : keys.bits.Made := (KeyBits.Made.empty.insert hfirst).insert hsecond
  have hkeys : keys.inverted = false := rfl
  obtain ⟨set, hok, hin, hplain, hcomplement, hnone⟩ :=
    evaluate_restricted searchColours blueNotRed answersLeaf_blueNotRed hkeys
  refine ⟨hkeys, answersLeaf_blueNotRed, hmade, set, hok, (hin 1 (by decide) (by decide)).trans (by decide),
    (hin 2 (by decide) (by decide)).trans (by decide), ?_,
    (hnone (fun hbits => KeyBits.Made.empty.insertAll? hbits) hmade).2⟩
  cases hi : set.inverted with
  | false => exact hplain hi 3 (by decide) (by decide)
  | true => exact hcomplement hi 3 (by decide) (by decide)

end RelationalExpr

end FederatedSearch
