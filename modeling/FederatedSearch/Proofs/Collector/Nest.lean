import FederatedSearch.Proofs.Collector.Compose
import FederatedSearch.Proofs.Collector.Quiet

/-!
# Collectors within collectors

Two collectors make one, and so do any number of collectors of one kind; and what is made in this way
can be a part again. However such a nest is built, and however the groups of a search are interleaved,
a search with the nest has each of the results that the searches with its parts have.

## Implementation notes

What a search comes to can depend on the order in which groups take their steps, if they share something.
Within a nest the groups have more steps to take, so there are orders that have no counterpart in the search
with one part. What is compared is therefore all that a search can come to on any schedule: if this is known
of each part, then it is known of the nest.

Within a nest a collector is given more than on its own: scores, if another part needs them, and the
key columns that other parts have asked for. That it does not look at these is what `Modest` says, and
all collectors of the library are modest. The nest itself is modest again.

## Main definitions

* `Collector.ComesAlone` — what searches with a collector on its own come to
* `Collector.Nest` — what a collector is made of, and what its parts come to

## Main results

* `Nest.comes` — a nest comes to what its parts come to
* `Collector.searchGroups_nest` — searches with any nest
-/

namespace FederatedSearch

namespace Collector

variable {B L P F : Type}

theorem exists_modest_many {ι : Type} {make : ι → Collector B L P F} {is : List ι}
    (h : ∀ i ∈ is, ∃ view, (make i).Modest view) : ∃ view, (many (is.map make)).Modest view := by
  have hviews : ∀ i : {i // i ∈ is}, ∃ view, (make i.1).Modest view := fun i => h i.1 i.2
  choose view hview using hviews
  have hparts : is.attach.map (fun i => make i.1) = is.map make := List.attach_map_val
  rw [← hparts]
  exact ⟨_, modest_many hview is.attach⟩

/-! ### Nests -/

/-- A part of a nest of many, with what searches with it come to. -/
structure NestPart (B L P F : Type) where
  collector : Collector B L P F
  good : F → Prop
  bad : Failure → Prop

/-- A collector that is made of others, two or many at a time, with the results it can have and the failures
it can end with, if `alone` says which these are for its parts. -/
inductive Nest (alone : ∀ {B L P F : Type}, Collector B L P F → (F → Prop) → (Failure → Prop) → Prop) :
    ∀ {B L P F : Type}, Collector B L P F → (F → Prop) → (Failure → Prop) → Prop
  | single {B L P F : Type} {c : Collector B L P F} {good : F → Prop} {bad : Failure → Prop}
      (h : alone c good bad) : Nest @alone c good bad
  | both {B C L M P Q F G : Type} {a : Collector B L P F} {b : Collector C M Q G} {good : F → Prop}
      {good' : G → Prop} {bad bad' : Failure → Prop} (ha : Nest @alone a good bad)
      (hb : Nest @alone b good' bad') :
      Nest @alone (a.both b) (fun x => good x.1 ∧ good' x.2) fun failure => bad failure ∨ bad' failure
  | many {B L P F : Type} {parts : List (NestPart B L P F)}
      (h : ∀ part ∈ parts, Nest @alone part.collector part.good part.bad) :
      Nest @alone (many (parts.map (·.collector))) (List.Forall₂ NestPart.good parts)
        fun failure => ∃ part ∈ parts, part.bad failure

/-- The collector is modest, and searches with it alone, from some columns that are sound, come to something
`good` on every schedule, or fail in a way that is `bad`. -/
def ComesAlone [PatternEngines] (catalog : Catalog) (w : Workshop) (core : String)
    (groups : List (List Placed))
    (query : Query) {B L P F : Type} (c : Collector B L P F) (good : F → Prop) (bad : Failure → Prop) :
    Prop :=
  (∃ view, c.Modest view) ∧ ∃ columns, KeyColumns.Sound catalog columns ∧ ∀ schedule : Schedule,
    Meets good bad ((c.searchGroups w schedule core groups query).result (columns, c.board)).1

section Nest

variable [PatternEngines] {catalog : Catalog} (w : Workshop) {core : String}
  {groups : List (List Placed)} {query : Query}
  (hlists : ∀ group ∈ groups, ∀ placed ∈ group, catalog.Lists placed.segment) {c : Collector B L P F}
  {good : F → Prop} {bad : Failure → Prop}
include hlists

/-- What searches from sound columns come to, searches without a memory come to as well. -/
theorem ComesAlone.comes (h : ComesAlone catalog w core groups query c good bad) :
    c.Comes core groups query good bad := by
  obtain ⟨⟨view, hmodest⟩, columns, hcolumns, hall⟩ := h
  intro schedule
  have hsearch : ∃ other, ((c.readScheduled schedule core groups query).result c.board).1 =
      ((c.searchGroups w other core groups query).result (columns, c.board)).1 :=
    hmodest.exists_searchGroups w query hlists (s := (columns, c.board)) hcolumns schedule
  obtain ⟨other, hother⟩ := hsearch
  exact hother ▸ hall other

/-- **A nest** is modest, and comes to what its parts come to. -/
theorem Nest.comes (h : Nest (ComesAlone catalog w core groups query) c good bad) :
    (∃ view, c.Modest view) ∧ c.Comes core groups query good bad := by
  induction h with
  | single h => exact ⟨h.1, h.comes w hlists⟩
  | both _ _ iha ihb =>
    obtain ⟨⟨view, hmodest⟩, hx⟩ := iha
    obtain ⟨⟨view', hmodest'⟩, hy⟩ := ihb
    exact ⟨⟨_, modest_both hmodest hmodest'⟩, hx.both hy⟩
  | many _ ih =>
    exact ⟨exists_modest_many fun part hpart => (ih part hpart).1,
      comes_many fun part hpart => (ih part hpart).2⟩

/-- **Collectors within collectors.** Let some collectors be nested in any way, two or many at a time.
Whatever is known of the results and the failures of the searches with each of them on its own is known of
the parts of the result of the search with the nest, and of its failures, on every schedule. So if the
searches with each of them succeed with one result, then the search with the nest succeeds with just those
results; and if the search with the nest fails or has some result, then a search with one of them on its own
can fail in this way, or searches with all of them can have the parts of this result. The searches work on
the same groups of segments; which segments a collector skips is up to it. -/
theorem searchGroups_nest (h : Nest (ComesAlone catalog w core groups query) c good bad)
    {columns : KeyColumns} (hsound : columns.Sound catalog) (schedule : Schedule) :
    Meets good bad ((c.searchGroups w schedule core groups query).result (columns, c.board)).1 := by
  obtain ⟨⟨view, hmodest⟩, hcomes⟩ := h.comes w hlists
  exact hcomes.searchGroups hmodest w hlists hsound schedule

/-- A collector whose groups share nothing comes to the same on every schedule. -/
theorem Quiet.comesAlone {c : Collector Unit L P F} (h : c.Quiet) {view : L → List String}
    (hmodest : c.Modest view) {x : F}
    (hx : ((c.searchGroups w [] core groups query).result ({}, c.board)).1 = .ok x) :
    ComesAlone catalog w core groups query c (· = x) fun _ => False := by
  refine ⟨⟨view, hmodest⟩, {}, KeyColumns.sound_empty, fun schedule => ?_⟩
  have hagrees : Agrees Eq ((c.searchGroups w schedule core groups query).result ({}, ())).1
      ((c.searchGroups w [] core groups query).result ({}, ())).1 :=
    h.agrees_searchGroups hmodest w w hlists KeyColumns.sound_empty KeyColumns.sound_empty schedule []
  rw [show ((c.searchGroups w [] core groups query).result ({}, ())).1 = .ok x from hx] at hagrees
  generalize ((c.searchGroups w schedule core groups query).result ({}, ())).1 = r at hagrees ⊢
  cases hagrees with
  | ok h => exact h

end Nest

/-- Two segments of two documents and one. -/
def pens : IndexedSegment := { core := "desk", identity := ⟨1⟩, docs := #[{ id := "a" }, { id := "b" }] }

def inks : IndexedSegment := { core := "desk", identity := ⟨2⟩, docs := #[{ id := "c" }] }

def desk : List (List Placed) := [[⟨0, 0, .indexed pens⟩], [⟨1, 2, .indexed inks⟩]]

/-- What is published under the two identities. -/
def deskCatalog : Catalog := fun id =>
  if id = ⟨1⟩ then some (.indexed pens) else if id = ⟨2⟩ then some (.indexed inks) else none

/-- The groups take their steps by turns, the second one first. -/
def crosswise : Schedule := (List.range 20).map fun i => ⟨(i + 1) % 2, false⟩

/-- The most relevant two and the most relevant one. -/
def deskTops : List (NestPart Unit TopHits (List Hit) (List Hit)) :=
  [⟨mostRelevant 2, (· = [⟨0, .one⟩, ⟨1, .one⟩]), fun _ => False⟩,
    ⟨mostRelevant 1, (· = [⟨0, .one⟩]), fun _ => False⟩]

/-- The matches are counted, next to a collector that wants to see no documents at all and to two that
keep the most relevant ones. -/
theorem searchGroups_nest_desk :
    (((counting.both ((faceting []).both (many (deskTops.map (·.collector))))).searchGroups
        ⟨2, fun _ => true⟩ crosswise "desk" desk .all).result ({}, ((), (), [(), ()]))).1 =
      .ok (3, [], [[⟨0, .one⟩, ⟨1, .one⟩], [⟨0, .one⟩]]) := by
  have hlists : ∀ group ∈ desk, ∀ placed ∈ group, deskCatalog.Lists placed.segment := by
    simp [desk, Catalog.Lists, deskCatalog, Segment.identity, pens, inks]
  have hsound : KeyColumns.Sound deskCatalog {} := KeyColumns.sound_empty
  have htops : ∀ part ∈ deskTops,
      ComesAlone deskCatalog ⟨2, fun _ => true⟩ "desk" desk .all part.collector part.good part.bad := by
    simp only [deskTops, List.forall_mem_cons]
    exact ⟨(quiet_mostRelevant 2).comesAlone _ hlists (modest_mostRelevant 2) (by decide +kernel),
      (quiet_mostRelevant 1).comesAlone _ hlists (modest_mostRelevant 1) (by decide +kernel), nofun⟩
  have hmany : Nest (ComesAlone deskCatalog ⟨2, fun _ => true⟩ "desk" desk .all)
      (many (deskTops.map (·.collector))) (List.Forall₂ NestPart.good deskTops)
      fun failure => ∃ part ∈ deskTops, part.bad failure :=
    .many fun part hpart => .single (htops part hpart)
  have hcount : ComesAlone deskCatalog ⟨2, fun _ => true⟩ "desk" desk .all counting (· = 3)
      fun _ => False :=
    quiet_counting.comesAlone _ hlists modest_counting (by decide +kernel)
  have hfacets : ComesAlone deskCatalog ⟨2, fun _ => true⟩ "desk" desk .all (faceting []) (· = [])
      fun _ => False :=
    (quiet_faceting []).comesAlone _ hlists (modest_faceting []) (by decide +kernel)
  have hnest := (Nest.single hcount).both ((Nest.single hfacets).both hmany)
  have hmeets := searchGroups_nest ⟨2, fun _ => true⟩ hlists hnest hsound crosswise
  obtain ⟨⟨count, facets, tops⟩, hr, rfl, rfl, htops⟩ :=
    (hmeets.mono (fun _ h => h) (by simp [deskTops])).exists_ok
  obtain rfl : tops = [[⟨0, .one⟩, ⟨1, .one⟩], [⟨0, .one⟩]] := by
    cases htops with
    | cons hfirst hrest =>
      cases hrest with
      | cons hsecond hnil => cases hnil with | nil => rw [hfirst, hsecond]
  exact hr

end Collector

end FederatedSearch
