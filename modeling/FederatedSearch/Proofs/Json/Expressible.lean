import FederatedSearch.Json.Shape

/-!
# Documents that text can express

Text has no words for infinities and NaNs, readers take whole numbers of at most 64 bits only, and a
member is found by its name. `Json.isExpressible` sets apart the documents that lose nothing as text. What
is proved about a writer and a reader says that such a document is written and that it is read again:
`Json.IsDocument` for whole documents, `Json.IsNested` for trees, whose readers are handed a bound on the
nesting.

A record that was written has each of its members once. So a shape finds in it what was put there, which
`Json.field?_cons` works out member by member, and the tag of a tagged record comes off again.

## Main definitions

* `Json.isExpressible` — documents that text can express
* `Json.IsDocument`, `Json.IsNested` — what is written is read

## Main results

* `Json.isReadable_of_isExpressible` — such documents are readable throughout
* `Json.field?_cons`, `Json.tagged?_object` — what shapes find in records
-/

namespace FederatedSearch

namespace Json

/-! ### Documents that text can express -/

mutual

/-- Numbers are finite or fit in 64 bits, and no two members of an object share a name. -/
def isExpressible : Json → Bool
  | integer v => decide (Int64.minValue.toInt ≤ v ∧ v < UInt64.size)
  | single x => x.isFinite
  | double x => x.isFinite
  | array items => allExpressible items
  | object members => decide (members.map (·.1)).Nodup && membersExpressible members
  | unreadable => false
  | _ => true

def allExpressible : List Json → Bool
  | [] => true
  | j :: rest => j.isExpressible && allExpressible rest

def membersExpressible : List (String × Json) → Bool
  | [] => true
  | (_, j) :: rest => j.isExpressible && membersExpressible rest

end

mutual

theorem isReadable_of_isExpressible : ∀ {j : Json}, j.isExpressible = true → j.isReadable = true
  | array items, h => by
    rw [isReadable]
    exact allReadable_of_allExpressible (by simpa [isExpressible] using h)
  | object members, h => by
    rw [isReadable]
    exact membersReadable_of_membersExpressible (by simp [isExpressible] at h; exact h.2)
  | unreadable, h => by simp [isExpressible] at h
  | null, _ | bool _, _ | integer _, _ | single _, _ | double _, _ | text _, _ => by simp [isReadable]

theorem allReadable_of_allExpressible :
    ∀ {items : List Json}, allExpressible items = true → allReadable items = true
  | [], _ => rfl
  | j :: rest, h => by
    obtain ⟨hj, hrest⟩ := Bool.and_eq_true_iff.mp (by simpa [allExpressible] using h)
    simp [allReadable, isReadable_of_isExpressible hj, allReadable_of_allExpressible hrest]

theorem membersReadable_of_membersExpressible :
    ∀ {members : List (String × Json)}, membersExpressible members = true →
      membersReadable members = true
  | [], _ => rfl
  | (_, j) :: rest, h => by
    obtain ⟨hj, hrest⟩ := Bool.and_eq_true_iff.mp (by simpa [membersExpressible] using h)
    simp [membersReadable, isReadable_of_isExpressible hj, membersReadable_of_membersExpressible hrest]

end

theorem allExpressible_iff {items : List Json} :
    allExpressible items = true ↔ ∀ j ∈ items, j.isExpressible = true := by
  induction items with
  | nil => simp [allExpressible]
  | cons j rest ih => simp [allExpressible, ih]

theorem membersExpressible_iff {members : List (String × Json)} :
    membersExpressible members = true ↔ ∀ m ∈ members, m.2.isExpressible = true := by
  induction members with
  | nil => simp [membersExpressible]
  | cons m rest ih => simp [membersExpressible, ih]

@[simp] theorem isExpressible_text (s : String) : (text s).isExpressible = true := rfl

/-- A record is as good as its fields. -/
theorem isExpressible_object {members : List (String × Json)} (hnames : (members.map (·.1)).Nodup)
    (hfields : ∀ m ∈ members, m.2.isExpressible = true) : (object members).isExpressible = true := by
  rw [isExpressible, Bool.and_eq_true, decide_eq_true_eq]
  exact ⟨hnames, membersExpressible_iff.mpr hfields⟩

theorem isExpressible_array {items : List Json} (h : ∀ j ∈ items, j.isExpressible = true) :
    (array items).isExpressible = true := by
  rw [isExpressible, allExpressible_iff]
  exact h

/-! ### Numbers -/

theorem isExpressible_int64 (v : Int64) : (integer v.toInt).isExpressible = true := by
  have hleast := v.minValue_le_toInt
  have hgreatest := v.toInt_lt
  simp only [isExpressible, decide_eq_true_eq]
  exact ⟨hleast, Int.lt_trans hgreatest (by decide)⟩

theorem toInt64?_toInt (v : Int64) : toInt64? (.integer v.toInt) = some v := by
  rw [toInt64?, if_pos ⟨v.minValue_le_toInt, v.toInt_le⟩, Int64.ofInt_toInt]

theorem isExpressible_uint64 (n : UInt64) : (integer n.toNat).isExpressible = true := by
  have hlt := n.toNat_lt
  simp only [isExpressible, decide_eq_true_eq]
  refine ⟨?_, ?_⟩
  · exact Int.le_trans (by decide) (Int.natCast_nonneg _)
  · exact Int.ofNat_lt.mpr hlt

theorem toUInt64?_toNat (n : UInt64) : toUInt64? (.integer n.toNat) = some n := by
  have hfits : (0 : Int) ≤ n.toNat ∧ (n.toNat : Int).toNat < UInt64.size :=
    ⟨Int.natCast_nonneg _, n.toNat_lt⟩
  rw [toUInt64?, if_pos hfits, Int.toNat_natCast, UInt64.ofNat_toNat]

/-! ### Members -/

@[simp] theorem field?_nil (name : String) : field? [] name = some none := rfl

/-- A field is the first member of its name, if there is no other one. -/
theorem field?_cons (name other : String) (j : Json) (rest : List (String × Json)) :
    field? ((other, j) :: rest) name =
      if other = name then if name ∈ rest.map (·.1) then none else some (some j)
      else field? rest name := by
  rw [field?, field?, membersNamed, membersNamed, List.filter_cons]
  by_cases hname : other = name
  · have hrest : (rest.filter (·.1 = name)).map (·.2) = [] ↔ name ∉ rest.map (·.1) := by
      simp only [List.map_eq_nil_iff, List.filter_eq_nil_iff, List.mem_map, not_exists, not_and,
        decide_eq_true_eq]
    simp only [hname, decide_true, if_true, List.map_cons]
    by_cases hmem : name ∈ rest.map (·.1)
    · rw [if_pos hmem]
      cases hfound : (rest.filter (·.1 = name)).map (·.2) with
      | nil => exact absurd hmem (hrest.mp hfound)
      | cons => rfl
    · rw [if_neg hmem, hrest.mpr hmem]
  · simp [hname]

/-- A tag comes off the record that it was put on. -/
theorem tagged?_object {tag variant : String} {variants : List String} {members : List (String × Json)}
    (hvariant : variant ∈ variants)
    (hexpressible : (object ((tag, text variant) :: members)).isExpressible = true) (inside : Bool) :
    (object ((tag, text variant) :: members)).tagged? tag variants inside =
      some (variant, object members) := by
  have hnodup : tag ∉ members.map (·.1) := by
    simp only [isExpressible, Bool.and_eq_true, decide_eq_true_eq, List.map_cons,
      List.nodup_cons] at hexpressible
    exact hexpressible.1.1
  have hfield : field? ((tag, text variant) :: members) tag = some (some (text variant)) := by
    rw [field?_cons, if_pos rfl, if_neg hnodup]
  have hmembers : ((tag, text variant) :: members).filter (·.1 ≠ tag) = members := by
    rw [List.filter_cons_of_neg (by simp), List.filter_eq_self]
    intro m hm
    have hne : m.1 ≠ tag := fun heq => hnodup (heq ▸ List.mem_map_of_mem hm)
    simpa using hne
  have hname : variant? variants inside (text variant) = some variant := by
    simp [variant?, hvariant]
  rw [tagged?, isReadable_of_isExpressible hexpressible]
  simp only [Bool.not_true, Bool.false_eq_true, if_false, hfield, hmembers, required,
    Option.bind_eq_bind, Option.bind_some, hname]

/-! ### What is written is read -/

variable {α : Type}

/-- `j` is what is written for `a`, text can express it, and `a` is read from it. -/
structure IsDocument (write? : α → Option Json) (read? : Json → Option α) (a : α) (j : Json) : Prop where
  written : write? a = some j
  expressible : j.isExpressible = true
  read : read? j = some a

/-- `j` is what is written for a tree. It is read back wherever it stands in a document, as long as
the nesting that the reader is allowed exceeds its depth. -/
structure IsNested (write? : α → Option Json) (readWithin? : Nat → Bool → Json → Option α) (a : α)
    (j : Json) : Prop where
  written : write? a = some j
  expressible : j.isExpressible = true
  read : ∀ room inside, j.depth < room → readWithin? room inside j = some a

variable {write? : α → Option Json} {readWithin? : Nat → Bool → Json → Option α} {a : α} {j : Json}

theorem IsNested.intro (hwritten : write? a = some j) (hexpressible : j.isExpressible = true)
    (hread : j.isExpressible = true → ∀ room inside, j.depth ≤ room →
      readWithin? (room + 1) inside j = some a) : IsNested write? readWithin? a j where
  written := hwritten
  expressible := hexpressible
  read := fun
    | room + 1, inside, hroom => hread hexpressible room inside (Nat.le_of_lt_succ hroom)

/-- The depth of a document is bound enough for all of it. -/
theorem IsNested.isDocument (h : IsNested write? readWithin? a j) (inside : Bool) :
    IsDocument write? (fun j => readWithin? (j.depth + 1) inside j) a j where
  written := h.written
  expressible := h.expressible
  read := h.read _ inside (Nat.lt_succ_self _)

end Json

end FederatedSearch
