import FederatedSearch.Cache.SegmentMap
import Mathlib.Data.List.Dedup
import Mathlib.Data.List.Nodup

/-!
# The first value stays

To whoever holds a segment, a `SegmentMap` looks like a plain map in which the first value written
stays: what is read is what was offered first, and when entries of dead segments were dropped
cannot be told. Holders come and go outside of the map. An entry whose segment has lost its last
holder may stand for a while, but an identity is given out once, so that no later holder can reach
it, and what the map drops is nothing that a holder could have read.

`Remembers` relates a map to the log of all that was offered, under one state of the holders. It is
kept by a purge, by a holder that goes and by an insertion. A `Use` is a map together with its
holders and the log, and a history takes it from event to event.

## Main definitions

* `SegmentMap.Remembers` — the map against the log
* `SegmentMap.Use`, `SegmentMap.Event`, `SegmentMap.Use.step`, `SegmentMap.Use.run` — histories
* `SegmentMap.Use.Kept` — what every history keeps

## Main results

* `SegmentMap.Remembers.get?_eq`, `SegmentMap.Remembers.insertIfAbsent`,
  `SegmentMap.Remembers.liveCount_eq` — the calls, in terms of the log
* `SegmentMap.Use.recalls_first` — the map after any history
-/

namespace FederatedSearch

namespace SegmentMap

variable {κ α : Type}

/-! ### Making room -/

theorem purgeAt_makeRoom (m : SegmentMap κ α) (live : Liveness) :
    (m.makeRoom live).purgeAt =
      if m.purgeAt ≤ m.entries.length then max minPurgeAt (2 * (m.purge live).entries.length)
      else m.purgeAt := by
  rw [makeRoom]
  split
  · exact Nat.max_comm ..
  · rfl

/-- There is room for one more entry then, whether the threshold was moved or not. -/
theorem length_makeRoom_lt (m : SegmentMap κ α) (live : Liveness) :
    (m.makeRoom live).entries.length < (m.makeRoom live).purgeAt := by
  rw [makeRoom]
  split
  · have hleast : 0 < minPurgeAt := by decide
    simp only
    omega
  · omega

/-! ### The map and the log -/

section Remembers

variable [DecidableEq κ] {m : SegmentMap κ α} {offered : List ((Identity × κ) × α)}
  {live live' : Liveness} {id : Identity} {key : κ}

/-- `m` has, for the living segments, all that was offered first and, for the dead, some of it. -/
structure Remembers (m : SegmentMap κ α) (offered : List ((Identity × κ) × α))
    (live : Liveness) : Prop where
  /-- No segment and key have two entries. -/
  nodup : (m.entries.map (·.1)).Nodup
  /-- An entry, dead or alive, has the value that was offered first. -/
  first : ∀ e ∈ m.entries, offered.lookup e.1 = some e.2
  /-- Whatever was offered for a living segment has an entry. -/
  complete : ∀ place ∈ offered.map (·.1), live place.1 → place ∈ m.entries.map (·.1)

theorem remembers_empty : (empty : SegmentMap κ α).Remembers [] live :=
  ⟨List.nodup_nil, nofun, nofun⟩

namespace Remembers

/-- Segments may die, and segments of which nothing was offered may come to life. -/
theorem mono (h : m.Remembers offered live)
    (hfewer : ∀ place ∈ offered.map (·.1), live' place.1 → live place.1) :
    m.Remembers offered live' :=
  ⟨h.nodup, h.first, fun place hplace hlive => h.complete place hplace (hfewer place hplace hlive)⟩

theorem purge (h : m.Remembers offered live) : (m.purge live).Remembers offered live where
  nodup := h.nodup.sublist (List.filter_sublist.map _)
  first e he := h.first e (List.mem_of_mem_filter he)
  complete place hplace hlive := by
    obtain ⟨e, he, rfl⟩ := List.mem_map.mp (h.complete place hplace hlive)
    exact List.mem_map_of_mem (List.mem_filter.mpr ⟨he, hlive⟩)

theorem makeRoom (h : m.Remembers offered live) : (m.makeRoom live).Remembers offered live := by
  rw [SegmentMap.makeRoom]
  split
  · exact ⟨h.purge.nodup, h.purge.first, h.purge.complete⟩
  · exact h

/-- For a living segment the entries and the log say the same. -/
theorem lookup_eq (h : m.Remembers offered live) (hlive : live id) :
    m.entries.lookup (id, key) = offered.lookup (id, key) := by
  cases hentry : m.entries.lookup (id, key) with
  | some value =>
    obtain ⟨before, after, hm, -⟩ := List.lookup_eq_some_iff.mp hentry
    exact (h.first ((id, key), value) (by simp [hm])).symm
  | none =>
    cases hlog : offered.lookup (id, key) with
    | none => rfl
    | some value =>
      obtain ⟨before, after, hoffered, -⟩ := List.lookup_eq_some_iff.mp hlog
      obtain ⟨e, he, hplace⟩ := List.mem_map.mp (h.complete (id, key) (by simp [hoffered]) hlive)
      exact absurd (List.lookup_eq_none_iff.mp hentry e he) (by simp [hplace])

theorem get?_eq (h : m.Remembers offered live) (hlive : live id) :
    m.get? live id key = offered.lookup (id, key) := by
  rw [get?, if_pos hlive, h.lookup_eq hlive]

/-- A value that comes too late is logged and changes nothing. -/
theorem offer_again (h : m.Remembers offered live) (hlive : live id) {kept value : α}
    (hkept : offered.lookup (id, key) = some kept) :
    m.Remembers (offered ++ [((id, key), value)]) live where
  nodup := h.nodup
  first e he := by rw [List.lookup_append, h.first e he, Option.some_or]
  complete place hplace hplive := by
    rw [List.map_append, List.mem_append] at hplace
    obtain hplace | hplace := hplace
    · exact h.complete place hplace hplive
    · obtain rfl : place = (id, key) := by simpa using hplace
      obtain ⟨before, after, hm, -⟩ := List.lookup_eq_some_iff.mp ((h.lookup_eq hlive).trans hkept)
      simp [hm]

/-- A first value is logged and entered. -/
theorem offer_first (h : m.Remembers offered live) (value : α)
    (hnone : offered.lookup (id, key) = none) :
    Remembers { m with entries := ((id, key), value) :: m.entries }
      (offered ++ [((id, key), value)]) live where
  nodup := by
    refine List.nodup_cons.mpr ⟨fun hmem => ?_, h.nodup⟩
    obtain ⟨e, he, hplace⟩ := List.mem_map.mp hmem
    -- not even the entry of a dead segment stands for a place that was never written to
    have hfirst := h.first e he
    rw [hplace, hnone] at hfirst
    cases hfirst
  first := by
    refine List.forall_mem_cons.mpr ⟨?_, fun e he => ?_⟩
    · simp [List.lookup_append, hnone]
    · rw [List.lookup_append, h.first e he, Option.some_or]
  complete place hplace hplive := by
    rw [List.map_append, List.mem_append] at hplace
    rw [List.map_cons]
    obtain hplace | hplace := hplace
    · exact List.mem_cons_of_mem _ (h.complete place hplace hplive)
    · exact List.mem_cons.mpr (.inl (by simpa using hplace))

/-- An insertion gives back the first value of the log that it is added to. -/
theorem insertIfAbsent (h : m.Remembers offered live) (hlive : live id) (key : κ) (value : α) :
    some (m.insertIfAbsent live id key value).1 =
        (offered ++ [((id, key), value)]).lookup (id, key) ∧
      (m.insertIfAbsent live id key value).2.Remembers (offered ++ [((id, key), value)]) live := by
  have hroom := h.makeRoom
  rw [SegmentMap.insertIfAbsent, hroom.lookup_eq hlive]
  cases hlog : offered.lookup (id, key) with
  | some kept => exact ⟨by simp [List.lookup_append, hlog], hroom.offer_again hlive hlog⟩
  | none => exact ⟨by simp [List.lookup_append, hlog], hroom.offer_first value hlog⟩

/-- The entries of living segments stand for the places that were written to. -/
theorem liveCount_eq (h : m.Remembers offered live) :
    m.liveCount live = (offered.map (·.1)).dedup.countP fun place => live place.1 := by
  have hplaces : ((m.entries.map (·.1)).filter fun place => live place.1).Perm
      ((offered.map (·.1)).dedup.filter fun place => live place.1) := by
    refine (List.perm_ext_iff_of_nodup (h.nodup.filter _) ((List.nodup_dedup _).filter _)).mpr
      fun place => ?_
    simp only [List.mem_filter, List.mem_dedup]
    refine and_congr_left fun hlive => ⟨fun hentry => ?_, fun hplace => h.complete place hplace hlive⟩
    obtain ⟨e, he, rfl⟩ := List.mem_map.mp hentry
    obtain ⟨before, after, hoffered, -⟩ := List.lookup_eq_some_iff.mp (h.first e he)
    simp [hoffered]
  calc m.liveCount live
      = (m.entries.map (·.1)).countP fun place => live place.1 := by rw [List.countP_map]; rfl
    _ = ((offered.map (·.1)).dedup.filter fun place => live place.1).length := by
        rw [List.countP_eq_length_filter, hplaces.length_eq]
    _ = (offered.map (·.1)).dedup.countP fun place => live place.1 :=
        List.countP_eq_length_filter.symm

end Remembers

end Remembers

/-! ### Histories -/

/-- A map in use. -/
structure Use (κ α : Type) where
  source : IdentitySource := {}
  /-- The identity of each handle that is held; one that was cloned is there more than once. -/
  holders : List Identity := []
  map : SegmentMap κ α := empty
  /-- What was offered to the map, the earliest first. -/
  offered : List ((Identity × κ) × α) := []
  /-- The number of entries that survived the last time the map made room. -/
  survivors : Nat := 0

/-- What may happen: to the handles, which are named by their place among `holders`, and to the map,
through a handle. -/
inductive Event (κ α : Type) where
  | create
  | clone (handle : Nat)
  | drop (handle : Nat)
  | insert (handle : Nat) (key : κ) (value : α)
  | get (handle : Nat) (key : κ)
  | purge

namespace Use

variable {u : Use κ α} {id : Identity}

/-- A segment lives while it has a holder. -/
def live (u : Use κ α) : Liveness := fun id => u.holders.contains id

theorem live_iff : u.live id ↔ id ∈ u.holders := List.contains_iff_mem

variable [DecidableEq κ]

/-- Offer a value for a segment and a key. -/
def insert (u : Use κ α) (id : Identity) (key : κ) (value : α) : Use κ α :=
  { u with
    map := (u.map.insertIfAbsent u.live id key value).2
    offered := u.offered ++ [((id, key), value)]
    survivors :=
      if u.map.purgeAt ≤ u.map.entries.length then (u.map.purge u.live).entries.length
      else u.survivors }

/-- Nothing happens through a handle that is not there. -/
def step (u : Use κ α) : Event κ α → Use κ α
  | .create =>
    let (id, source) := mint u.source
    { u with source, holders := u.holders ++ [id] }
  | .clone handle =>
    match u.holders[handle]? with
    | some id => { u with holders := u.holders ++ [id] }
    | none => u
  | .drop handle => { u with holders := u.holders.eraseIdx handle }
  | .insert handle key value =>
    match u.holders[handle]? with
    | some id => u.insert id key value
    | none => u
  | .get _ _ => u
  | .purge => { u with map := u.map.purge u.live }

/-- From a new map, with nothing held. -/
def run (history : List (Event κ α)) : Use κ α := history.foldl step {}

/-- What every event keeps. -/
structure Kept (u : Use κ α) : Prop where
  /-- Identities that are held were given out. -/
  held : ∀ id ∈ u.holders, id.serial < u.source.next
  /-- So were those that values were offered for. -/
  issued : ∀ place ∈ u.offered.map (·.1), place.1.serial < u.source.next
  remembers : u.map.Remembers u.offered u.live
  threshold : u.map.purgeAt = max minPurgeAt (2 * u.survivors)
  bounded : u.map.entries.length ≤ u.map.purgeAt

theorem kept_start : ({} : Use κ α).Kept where
  held := nofun
  issued := nofun
  remembers := remembers_empty
  threshold := rfl
  bounded := Nat.zero_le _

/-- The handles may change so long as no segment comes back to life that something was offered
for. -/
theorem Kept.rehold (h : u.Kept) {source : IdentitySource} {holders : List Identity}
    (hsource : u.source.next ≤ source.next) (hheld : ∀ id ∈ holders, id.serial < source.next)
    (hfewer : ∀ id ∈ holders, id.serial < u.source.next → id ∈ u.holders) :
    Kept { u with source, holders } where
  held := hheld
  issued place hplace := Nat.lt_of_lt_of_le (h.issued place hplace) hsource
  remembers := h.remembers.mono fun place hplace hlive =>
    live_iff.mpr (hfewer place.1 (List.contains_iff_mem.mp hlive) (h.issued place hplace))
  threshold := h.threshold
  bounded := h.bounded

theorem Kept.purge (h : u.Kept) : Kept { u with map := u.map.purge u.live } where
  held := h.held
  issued := h.issued
  remembers := h.remembers.purge
  threshold := h.threshold
  bounded := Nat.le_trans (List.length_filter_le ..) h.bounded

/-- An insertion makes room and then takes at most the room that was made. -/
theorem insertIfAbsent_bounded (m : SegmentMap κ α) (live : Liveness) (id : Identity) (key : κ)
    (value : α) :
    (m.insertIfAbsent live id key value).2.purgeAt = (m.makeRoom live).purgeAt ∧
      (m.insertIfAbsent live id key value).2.entries.length ≤ (m.makeRoom live).purgeAt := by
  have hroom := m.length_makeRoom_lt live
  rw [insertIfAbsent]
  split
  · exact ⟨rfl, Nat.le_of_lt hroom⟩
  · exact ⟨rfl, hroom⟩

theorem Kept.insert (h : u.Kept) (hid : id ∈ u.holders) (key : κ) (value : α) :
    (u.insert id key value).Kept where
  held := h.held
  issued place hplace := by
    obtain hplace | hplace := List.mem_append.mp (List.map_append ▸ hplace)
    · exact h.issued place hplace
    · obtain rfl : place = (id, key) := by simpa using hplace
      exact h.held id hid
  remembers := (h.remembers.insertIfAbsent (live_iff.mpr hid) key value).2
  threshold := by
    simp only [Use.insert, (insertIfAbsent_bounded ..).1, purgeAt_makeRoom]
    split
    · rfl
    · exact h.threshold
  bounded := by
    simp only [Use.insert, (insertIfAbsent_bounded ..).1]
    exact (insertIfAbsent_bounded ..).2

theorem Kept.step (h : u.Kept) (event : Event κ α) : (u.step event).Kept := by
  cases event with
  | create =>
    -- the identity is new, so nothing was offered for it before
    refine h.rehold (Nat.le_succ _) (fun id hid => ?_) fun id hid hold => ?_
    · obtain hid | rfl := by simpa using hid
      · exact Nat.lt_succ_of_lt (h.held id hid)
      · exact Nat.lt_succ_self _
    · obtain hid | rfl := by simpa using hid
      · exact hid
      · exact absurd hold (Nat.lt_irrefl _)
  | clone handle =>
    rw [Use.step]
    split
    · rename_i id hhandle
      have hback : ∀ other ∈ u.holders ++ [id], other ∈ u.holders := by
        simpa [or_imp, forall_and] using List.mem_of_getElem? hhandle
      exact h.rehold (Nat.le_refl _) (fun other ho => h.held other (hback other ho))
        fun other ho _ => hback other ho
    · exact h
  | drop handle =>
    exact h.rehold (Nat.le_refl _) (fun id hid => h.held id (List.mem_of_mem_eraseIdx hid))
      fun id hid _ => List.mem_of_mem_eraseIdx hid
  | insert handle key value =>
    rw [Use.step]
    split
    · rename_i id hhandle
      exact h.insert (List.mem_of_getElem? hhandle) key value
    · exact h
  | get handle key => exact h
  | purge => exact h.purge

theorem kept_run (history : List (Event κ α)) : (run history).Kept := by
  have hsteps : ∀ u : Use κ α, u.Kept → (history.foldl Use.step u).Kept := by
    induction history with
    | nil => exact fun _ h => h
    | cons event history ih => exact fun u h => ih (u.step event) (h.step event)
  exact hsteps {} kept_start

/-- **The first value stays.** After any history, through any handle that is held: what is read
under a key is the first value that was ever offered for the segment and the key, and an insertion
gives back that value, which is the new one if there was none. The entries of living segments count
the places written to, and there are never more entries than `minPurgeAt` or twice those that
survived the last time the map made room. -/
theorem recalls_first (history : List (Event κ α)) :
    (∀ id ∈ (run history).holders, ∀ key,
        (run history).map.get? (run history).live id key = (run history).offered.lookup (id, key) ∧
          ∀ value, some ((run history).map.insertIfAbsent (run history).live id key value).1 =
            ((run history).offered ++ [((id, key), value)]).lookup (id, key)) ∧
      (run history).map.liveCount (run history).live =
          ((run history).offered.map (·.1)).dedup.countP (fun place => (run history).live place.1) ∧
        (run history).map.entries.length ≤ max minPurgeAt (2 * (run history).survivors) := by
  have h := kept_run history
  refine ⟨fun id hid key => ?_, h.remembers.liveCount_eq, h.threshold ▸ h.bounded⟩
  have hlive : (run history).live id := live_iff.mpr hid
  exact ⟨h.remembers.get?_eq hlive, fun value => (h.remembers.insertIfAbsent hlive key value).1⟩

/-- A segment fills the map and is dropped. The first value of the next one makes room, and its
second value, offered through another handle, comes too late. -/
def outlived : List (Event Nat Nat) :=
  .create :: (List.range minPurgeAt).map (fun key => .insert 0 key key) ++
    [.create, .drop 0, .insert 0 7 100, .clone 0, .drop 0, .insert 0 7 200]

theorem recalls_first_outlived :
    ⟨2⟩ ∈ (run outlived).holders ∧ (run outlived).map.entries.length = 1 ∧
      (run outlived).map.get? (run outlived).live ⟨2⟩ 7 = some 100 := by
  have hheld : ⟨2⟩ ∈ (run outlived).holders := by decide +kernel
  have hfirst : (run outlived).offered.lookup (⟨2⟩, 7) = some 100 := by decide +kernel
  have hread := (((recalls_first outlived).1 ⟨2⟩ hheld 7).1).trans hfirst
  exact ⟨hheld, by decide +kernel, hread⟩

end Use

end SegmentMap

end FederatedSearch
